import Templating.CommandLine.Run
import Templating.Proofs.DottedPaths
import Templating.Proofs.NamedVariables
import Templating.Proofs.OpenScopes
import Templating.Proofs.QuotedLiterals
import Templating.Proofs.RunOutput

/-!
# Variables that are set by a request

A request sets variables one after another, over those of its context file.  A text that
sets a variable is split at its first equals sign (`Defines`), and what counts is the last
text for a name (`SetsLast`).

**Which variables.**  A variable is set under its whole name, and an expression is looked up
by its first segment.  A name with a dot is therefore set, but no expression means it
(`run_dottedDefine`): there are no variables inside of a value.

**What is seen of them.**  The variables are in the bottom scope, which a rendering never
writes to.  Outside all loops a placeholder puts out what has been set last; an expression
whose first segment is not set means, wherever it stands, what it means with the variables
of the context file in the bottom scope.  What the stages of the run put out is the output
of the request (`RenderRequest.Shows`).

Main definitions: `Defines` and `SetsLast`.  Main statement:
`RenderRequest.sets_variables`.
-/

namespace Templating
namespace CommandLine

open Text

section Defs

/-- The text sets a variable: the name in front of the first equals sign, without blanks at
its ends, and what stands behind the sign. -/
def Defines (text name value : String) : Prop :=
  ∃ left, text = left ++ "=" ++ value ∧ '=' ∉ left.toList ∧ trim left = name

/-- None of the texts sets the variable. -/
def Unset (defines : List String) (name : String) : Prop :=
  ∀ text ∈ defines, ∀ value, ¬ Defines text name value

/-- The last of the texts that set the variable sets it to the value. -/
def SetsLast (defines : List String) (name value : String) : Prop :=
  ∃ before text behind, defines = before ++ text :: behind ∧ Defines text name value ∧
    Unset behind name

/-- A name that can be written as an expression: without dots and quotes, and without the
character that closes a placeholder. -/
structure IsExpressionName (name : String) : Prop where
  noDot : '.' ∉ name.toList
  noQuote : ∀ c ∈ name.toList, c ≠ '"' ∧ c ≠ '\''
  noBrace : '}' ∉ name.toList

end Defs

section Splitting

variable {text name value : String} {defines : List String}

theorem splitDefine?_eq_some_iff :
    splitDefine? text = some (name, value) ↔ Defines text name value := by
  constructor
  · intro h
    unfold splitDefine? at h
    split at h
    · next c rest hdrop =>
        have hsplit := List.takeWhile_append_dropWhile (p := (· != '=')) (l := text.toList)
        have hhead := List.head?_dropWhile_not (· != '=') text.toList
        rw [hdrop] at hsplit hhead
        obtain rfl : c = '=' := by simpa using hhead
        obtain ⟨rfl, rfl⟩ := Prod.mk.inj (Option.some.inj h)
        refine ⟨String.ofList (text.toList.takeWhile (· != '=')), ?_, ?_, rfl⟩
        · rw [String.ext_iff]
          simpa using hsplit.symm
        · intro hmem
          rw [String.toList_ofList] at hmem
          simpa using List.mem_takeWhile_imp hmem
    · cases h
  · rintro ⟨left, rfl, hleft, rfl⟩
    have hne : ∀ c ∈ left.toList, (c != '=') = true := by
      intro c hc
      simpa using fun h : c = '=' => hleft (h ▸ hc)
    have hlist : (left ++ "=" ++ value).toList = left.toList ++ '=' :: value.toList := by
      simp
    have hdrop : (left ++ "=" ++ value).toList.dropWhile (· != '=') =
        '=' :: value.toList := by
      rw [hlist, List.dropWhile_append_of_pos hne]
      rfl
    have htake : (left ++ "=" ++ value).toList.takeWhile (· != '=') = left.toList := by
      rw [hlist, List.takeWhile_append_of_pos hne]
      simp
    simp only [splitDefine?, hdrop, htake, String.ofList_toList]

/-- What a text sets is unique. -/
theorem Defines.unique {name' value' : String} (h : Defines text name value)
    (h' : Defines text name' value') : name' = name ∧ value' = value := by
  have heq := (splitDefine?_eq_some_iff.2 h').symm.trans (splitDefine?_eq_some_iff.2 h)
  simpa using heq

/-- A text sets a variable if there is an equals sign in it. -/
theorem exists_defines_iff : (∃ name value, Defines text name value) ↔ '=' ∈ text.toList := by
  constructor
  · rintro ⟨name, value, left, rfl, -⟩
    simp
  · intro h
    cases hsplit : splitDefine? text with
    | some p => exact ⟨p.1, p.2, splitDefine?_eq_some_iff.1 hsplit⟩
    | none =>
        have hall : ∀ c ∈ text.toList, (c != '=') = true := by
          unfold splitDefine? at hsplit
          split at hsplit
          · cases hsplit
          · next hdrop => exact List.dropWhile_eq_nil_iff.1 hdrop
        simpa using hall '=' h

end Splitting

section Setting

variable {text name value : String} {defines before behind : List String} {c c' : Context}

theorem define_cons_eq_ok_iff {rest : List String} :
    define (text :: rest) c = .ok c' ↔
      ∃ name value, Defines text name value ∧
        define rest (c.set name (.string value)) = .ok c' := by
  simp only [define, ← splitDefine?_eq_some_iff]
  cases splitDefine? text with
  | none => simp
  | some p => simp [Prod.ext_iff]

/-- Texts that all have an equals sign set their variables, one over the other, in the
scope that a context file fills. -/
theorem exists_define (fields : Scope) (h : ∀ text ∈ defines, '=' ∈ text.toList) :
    ∃ fields', define defines (.ofScope fields) = .ok (.ofScope fields') := by
  induction defines generalizing fields with
  | nil => exact ⟨fields, rfl⟩
  | cons text rest ih =>
      obtain ⟨htext, hrest⟩ := List.forall_mem_cons.1 h
      obtain ⟨name, value, hdefines⟩ := exists_defines_iff.2 htext
      obtain ⟨fields', hfields'⟩ := ih (Keyed.insert name (.string value) fields) hrest
      exact ⟨fields', define_cons_eq_ok_iff.2 ⟨name, value, hdefines, hfields'⟩⟩

theorem define_append (before behind : List String) (c : Context) :
    define (before ++ behind) c = (define before c).bind (define behind) := by
  induction before generalizing c with
  | nil => rfl
  | cons text rest ih =>
      simp only [List.cons_append, define]
      cases splitDefine? text with
      | none => rfl
      | some p => exact ih _

/-- A variable that no text sets keeps its value. -/
theorem get?_of_unset (hunset : Unset defines name) (h : define defines c = .ok c') :
    c'.get? name = c.get? name := by
  induction defines generalizing c with
  | nil =>
      cases h
      rfl
  | cons text rest ih =>
      obtain ⟨htext, hrest⟩ := List.forall_mem_cons.1 hunset
      obtain ⟨other, value, hdefines, hdefine⟩ := define_cons_eq_ok_iff.1 h
      have hne : name ≠ other := by
        rintro rfl
        exact htext value hdefines
      rw [ih hrest hdefine, Context.get?_set_of_ne c _ hne]

/-- **The last text for a variable counts.** -/
theorem get?_of_setsLast (hlast : SetsLast defines name value)
    (h : define defines c = .ok c') : c'.get? name = some (.string value) := by
  obtain ⟨before, text, behind, rfl, htext, hbehind⟩ := hlast
  rw [define_append] at h
  cases hbefore : define before c with
  | error e =>
      rw [hbefore] at h
      cases h
  | ok c₁ =>
      rw [hbefore] at h
      obtain ⟨name', value', hdefines, hdefine⟩ := define_cons_eq_ok_iff.1 h
      obtain ⟨rfl, rfl⟩ := htext.unique hdefines
      rw [get?_of_unset hbehind hdefine, Context.get?_set_self]

end Setting

section Reading

variable {name value : String} {defines : List String}

theorem Defines.trim_name {text : String} (h : Defines text name value) :
    trim name = name := by
  obtain ⟨left, -, -, rfl⟩ := h
  simp [trim]

theorem SetsLast.trim_name (h : SetsLast defines name value) : trim name = name := by
  obtain ⟨-, text, -, -, htext, -⟩ := h
  exact htext.trim_name

namespace IsExpressionName

/-- A placeholder for the name, as it is written in a template. -/
theorem parse_placeholder (h : IsExpressionName name) (htrim : trim name = name)
    (strict : Bool) :
    Template.parse strict ("\x7b\x7b " ++ name ++ " \x7d\x7d") =
      .ok ⟨none, [.placeholder (.ofSource name)]⟩ := by
  have hdisplay : "\x7b\x7b " ++ name ++ " \x7d\x7d" =
      Token.display ⟨.placeholder, name⟩ := by
    simp [Token.display, Token.displayChars, Kind.marks, String.ext_iff]
  rw [hdisplay]
  exact Template.parse_trimmed htrim fun hpart =>
    h.noBrace (hpart.subset List.mem_cons_self)

/-- The name means the variable of this name. -/
theorem resolve?_eq (h : IsExpressionName name) (htrim : trim name = name)
    (c : Context) : (Expression.ofSource name).resolve? c = c.get? name := by
  refine Expression.resolve?_ofSource htrim h.noDot (Expression.quoted?_eq_none ?_) c
  exact fun d hd => h.noQuote d (List.mem_of_getLast? hd)

end IsExpressionName

/-- A variable that no text sets has the value that it has with the variables of the
context file in the bottom scope. -/
theorem get?_with_bottom {fields fields' : Scope} (hunset : Unset defines name)
    (hdefine : define defines (.ofScope fields) = .ok (.ofScope fields')) {c : Context}
    (hbottom : c.bottom = fields') :
    c.get? name = Context.get? { c with bottom := fields } name := by
  have hget : Keyed.find? name fields' = Keyed.find? name fields := by
    simpa using get?_of_unset hunset hdefine
  simp [Context.get?, Context.scopes, List.findSome?_append, hbottom, hget]

end Reading

section Requests

variable {request : RenderRequest} {env : Environment} {loader : Loader} {t : Template}
  {fields : Scope}

/-- **A request sets its variables** if each text has an equals sign.  The request ends as
the last stage of its run does.  A placeholder for a name puts out what the last text for
the name sets, at every stage outside loops, whatever the context file says.  An expression
whose first segment is not set means, at every stage, what it means with the variables of
the context file alone, and this is put out for it. -/
theorem RenderRequest.sets_variables
    (hloader : request.loader env.files = .ok loader)
    (hload : loader.loadFile env.files request.template = .ok t)
    (hcontext : request.baseContext env.files = .ok (.ofScope fields))
    (hdefines : ∀ text ∈ request.defines, '=' ∈ text.toList) :
    ∃ c, request.rendered env = .ok (t.render env c) ∧
      (∃ last, (Stage.start t.nodes c).Leads env last ∧ last.step env = none ∧
        request.run env = last.output.mapError (.render request.template)) ∧
      (∀ name value, SetsLast request.defines name value → IsExpressionName name →
        (∀ strict, Template.parse strict ("\x7b\x7b " ++ name ++ " \x7d\x7d") =
          .ok ⟨none, [.placeholder (.ofSource name)]⟩) ∧
        ∀ m, (Stage.start t.nodes c).Leads env m → m.openScopes = 0 →
          (Expression.ofSource name).outputText m.context = value ∧
            request.Shows env m (.ofSource name) value) ∧
      ∀ e : Expression, (∀ name, e.root? = some name → Unset request.defines name) →
        ∀ m, (Stage.start t.nodes c).Leads env m →
          e.resolve? m.context = e.resolve? { m.context with bottom := fields } ∧
            request.Shows env m e (e.outputText { m.context with bottom := fields }) ∧
            (m.openScopes = 0 → e.resolve? m.context = e.resolve? (.ofScope fields) ∧
              request.Shows env m e (e.outputText (.ofScope fields))) := by
  obtain ⟨fields', hdefine⟩ := exists_define fields hdefines
  let c := (Context.ofScope fields').withLoader loader
  have hrendered : request.rendered env = .ok (t.render env c) :=
    RenderRequest.rendered_eq_ok_iff.2
      ⟨loader, t, _, _, hloader, hload, hcontext, hdefine, rfl⟩
  refine ⟨c, hrendered, RenderRequest.exists_last hrendered, ?_, ?_⟩
  · intro name value hlast hname
    have htrim := hlast.trim_name
    refine ⟨hname.parse_placeholder htrim, fun m hm hopen => ?_⟩
    have hget : m.context.get? name = some (.string value) := by
      rw [(grounded_of_leads hm).get?_eq rfl hopen, ← get?_of_setsLast hlast hdefine]
      exact (Context.get?_ofScope fields' name).symm
    have htext : (Expression.ofSource name).outputText m.context = value :=
      Expression.outputText_of_resolve? ((hname.resolve?_eq htrim _).trans hget)
    exact ⟨htext, htext ▸ RenderRequest.shows_of_leads hrendered hm (.ofSource name)⟩
  · intro e hroot m hm
    have hgrounded := grounded_of_leads hm
    have hbottom : e.resolve? m.context = e.resolve? { m.context with bottom := fields } :=
      e.resolve?_congr fun name hname =>
        get?_with_bottom (hroot name hname) hdefine hgrounded.bottom
    -- an expression that means the same puts out the same
    have hshows {c' : Context} (hsame : e.resolve? m.context = e.resolve? c') :
        request.Shows env m e (e.outputText c') := by
      have htext : e.outputText m.context = e.outputText c' := by
        simp only [Expression.outputText, hsame]
      exact htext ▸ RenderRequest.shows_of_leads hrendered hm e
    refine ⟨hbottom, hshows hbottom, fun hopen => ?_⟩
    have hfile : e.resolve? m.context = e.resolve? (.ofScope fields) := by
      refine e.resolve?_congr fun name hname => ?_
      rw [hgrounded.get?_eq rfl hopen, ← get?_of_unset (hroot name hname) hdefine]
      exact (Context.get?_ofScope fields' name).symm
    exact ⟨hfile, hshows hfile⟩

/-- A template in a file, and a context file with two variables. -/
def greeting (template : String) : Environment where
  files :=
    ⟨[("t.html", .text template),
      ("ctx.json", .text "\x7b\"name\": \"x\", \"city\": \"Oslo\"\x7d")], []⟩
  clock := ⟨0, 0, 0⟩

/-- A request that sets variables over those of the context file. -/
def greetingRequest (defines : List String) : RenderRequest :=
  ⟨"t.html", some "ctx.json", defines, none, [], false⟩

theorem loader_greeting (template : String) (defines : List String) :
    (greetingRequest defines).loader (greeting template).files = .ok ⟨[""], false⟩ := by
  have hconfig : Config.loadOrDefault (greeting template).files configFile =
      .ok ⟨false, []⟩ := rfl
  have hparent : Path.parent? "t.html" = some "" := by decide +kernel
  simp only [RenderRequest.loader, greetingRequest, hconfig, hparent]
  rfl

theorem readContext_greeting (template : String) :
    readContext (greeting template).files "ctx.json" =
      .ok (.object [("city", .string "Oslo"), ("name", .string "x")]) :=
  rfl

theorem baseContext_greeting (template : String) (defines : List String) :
    (greetingRequest defines).baseContext (greeting template).files =
      .ok (.ofScope [("city", .string "Oslo"), ("name", .string "x")]) :=
  rfl

theorem loadFile_greeting {template : String} {nodes : List Node} (defines : List String)
    (hparse : Template.parse false template = .ok ⟨none, nodes⟩) :
    Loader.loadFile ⟨[""], false⟩ (greeting template).files
      (greetingRequest defines).template = .ok ⟨some "t.html", nodes⟩ := by
  have hread : (greeting template).files.read "t.html" = .ok template := rfl
  simp only [Loader.loadFile, greetingRequest, hread, hparse]
  rfl

/-- A variable that is set twice, once with a blank behind its name, has the last text and
hides that of the context file, and this is what the request puts out.  The other variable
of the file is seen as before. -/
theorem greeting_sets_name :
    (greetingRequest ["name = Sam", "name=Max=1"]).run
        (greeting "\x7b\x7b name \x7d\x7d") = .ok "Max=1" ∧
      ∃ c, (greetingRequest ["name = Sam", "name=Max=1"]).rendered
            (greeting "\x7b\x7b name \x7d\x7d") =
          .ok (Template.render (greeting "\x7b\x7b name \x7d\x7d")
            ⟨some "t.html", [.placeholder (.ofSource "name")]⟩ c) ∧
        ∀ m, (Stage.start [.placeholder (.ofSource "name")] c).Leads
            (greeting "\x7b\x7b name \x7d\x7d") m → m.openScopes = 0 →
          (Expression.ofSource "name").outputText m.context = "Max=1" ∧
            (Expression.ofSource "city").resolve? m.context = some (.string "Oslo") := by
  have hname : IsExpressionName "name" := ⟨by simp, by simp, by simp⟩
  have hplaceholder := hname.parse_placeholder (by decide +kernel) false
  have hfirst : Defines "name = Sam" "name" " Sam" :=
    ⟨"name ", by decide, by simp, by decide +kernel⟩
  have hlast : Defines "name=Max=1" "name" "Max=1" :=
    ⟨"name", by decide, by simp, by decide +kernel⟩
  have hunset : Unset ["name = Sam", "name=Max=1"] "city" := by
    intro text htext value hcity
    rcases List.mem_pair.1 htext with rfl | rfl
    · exact absurd (hfirst.unique hcity).1 (by decide)
    · exact absurd (hlast.unique hcity).1 (by decide)
  have hcity : ∀ name, (Expression.ofSource "city").root? = some name →
      Unset ["name = Sam", "name=Max=1"] name := by
    have hroot : (Expression.ofSource "city").root? = some "city" := by decide +kernel
    rw [hroot]
    rintro name ⟨⟩
    exact hunset
  have hequals : ∀ text ∈ ["name = Sam", "name=Max=1"], '=' ∈ text.toList := by simp
  obtain ⟨c, hrendered, -, hsets, hkeeps⟩ := RenderRequest.sets_variables
    (loader_greeting _ _) (loadFile_greeting _ hplaceholder) (baseContext_greeting _ _)
    hequals
  have hmax := (hsets "name" "Max=1"
    ⟨["name = Sam"], "name=Max=1", [], rfl, hlast, by simp [Unset]⟩ hname).2
  refine ⟨?_, c, hrendered, fun m hm hopen => ⟨(hmax m hm hopen).1, ?_⟩⟩
  · refine RenderRequest.run_eq_ok_iff.2 ⟨_, hrendered, ?_⟩
    rw [Template.render, outcome_render, renderResult_placeholder]
    exact congrArg Outcome.ok (hmax _ .refl rfl).1
  · rw [((hkeeps _ hcity m hm).2.2 hopen).1]
    rfl

/-- **A name with a dot is set in vain**: its expression is looked up by the first segment,
which no text sets. -/
theorem run_dottedDefine :
    SetsLast ["a.b=x"] "a.b" "x" ∧ trim "a.b" = "a.b" ∧
      (∀ c ∈ "a.b".toList, c ∉ ['"', '\'', '\x7b', '\x7d']) ∧
      readContext (greeting "\x7b\x7b a.b \x7d\x7d").files "ctx.json" =
        .ok (.object [("city", .string "Oslo"), ("name", .string "x")]) ∧
      (greetingRequest ["a.b=x"]).run (greeting "\x7b\x7b a.b \x7d\x7d") = .ok "" := by
  have hdefines : SetsLast ["a.b=x"] "a.b" "x" :=
    ⟨[], _, [], rfl, ⟨"a.b", by decide, by simp, by decide +kernel⟩, by simp [Unset]⟩
  have htrim : trim "a.b" = "a.b" := by decide +kernel
  refine ⟨hdefines, htrim, by simp, readContext_greeting _, ?_⟩
  have hdisplay : Token.display ⟨.placeholder, "a.b"⟩ = "\x7b\x7b a.b \x7d\x7d" := by
    decide +kernel
  have hmark : ¬ ['}', '}'] <:+: "a.b".toList := by simp [pair_infix_cons_iff]
  have hparse : Template.parse false "\x7b\x7b a.b \x7d\x7d" =
      .ok ⟨none, [.placeholder (.ofSource "a.b")]⟩ := by
    rw [← hdisplay]
    exact Template.parse_trimmed htrim hmark
  have hdefine : define ["a.b=x"]
      (.ofScope [("city", .string "Oslo"), ("name", .string "x")]) =
      .ok (.ofScope [("a.b", .string "x"), ("city", .string "Oslo"),
        ("name", .string "x")]) := rfl
  refine RenderRequest.run_eq_ok_iff.2 ⟨_, RenderRequest.rendered_eq_ok_iff.2
    ⟨_, _, _, _, loader_greeting _ _, loadFile_greeting _ hparse, baseContext_greeting _ _,
      hdefine, rfl⟩, ?_⟩
  rw [Template.render, outcome_render, renderResult_placeholder]
  rfl

end Requests

end CommandLine
end Templating
