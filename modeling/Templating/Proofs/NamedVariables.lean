import Mathlib.Data.Set.Insert
import Templating.Proofs.LoadedFiles
import Templating.Proofs.RenderResult
import Templating.Proofs.TwoRuns

/-!
# The variables that a rendering reads

A context is read by name only, and the names are written in the template and in
the files that it includes: the first segment of every expression without quotes.
What else is bound, in how many scopes, and which scope a name is bound in makes
no difference.

**Two runs.**  A template is rendered in two contexts that agree on the names
(`AgreeOn`).  Loops push the same scope on both sides and inclusions the same name,
so that they go on to agree.

Main definitions: `AgreeOn` and `ReadsOnly`.  Main statement:
`Template.result_eq_of_agreeOn`.
-/

namespace Templating

section Defs

/-- The name of the variable that an expression without quotes begins with. -/
def Expression.root? (e : Expression) : Option String :=
  match e.literal? with
  | some _ => none
  | none => e.segments.head?

/-- The variables of the expressions are in a set of names. -/
def NamesWithin (names : Set String) (expressions : List Expression) : Prop :=
  ∀ e ∈ expressions, ∀ name, e.root? = some name → name ∈ names

/-- The templates that can be included name variables of the set only. -/
def LoadsWithin (env : Environment) (names : Set String) (c : Context) : Prop :=
  ∀ loader, c.loader = some loader → ∀ name template,
    loader.load env.files name = .ok template →
      NamesWithin names (expressionsOf template.nodes)

/-- Two contexts with the same loader and the same inclusions in progress, in which
the names have the same values. -/
structure AgreeOn (names : Set String) (c c' : Context) : Prop where
  loader : c.loader = c'.loader
  includes : c.includes = c'.includes
  values : ∀ name ∈ names, c.get? name = c'.get? name

/-- What is rendered is the same in all contexts that agree on the names. -/
def DependsOnly (env : Environment) (names : Set String)
    (body : Context → Rendered) : Prop :=
  ∀ c c', LoadsWithin env names c → AgreeOn names c c' →
    (body c).outcome = (body c').outcome

/-- Nodes of built-in tags that name variables of the set only are rendered so that
the result depends on these alone. -/
def ReadsOnly (env : Environment) (names : Set String)
    (rendering : List Node → Context → Rendered) : Prop :=
  ∀ nodes, AllBuiltin nodes → NamesWithin names (expressionsOf nodes) →
    DependsOnly env names (rendering nodes)

end Defs

section Agreement

variable {names : Set String} {c c' : Context}

/-- An expression means the same where the variable that it begins with does. -/
theorem Expression.resolve?_congr (e : Expression)
    (h : ∀ name, e.root? = some name → c.get? name = c'.get? name) :
    e.resolve? c = e.resolve? c' := by
  unfold Expression.resolve?
  cases hliteral : e.literal? with
  | some s => rfl
  | none =>
      cases hsegments : e.segments with
      | nil => rfl
      | cons first rest =>
          have hvariable : e.root? = some first := by
            rw [Expression.root?, hliteral, hsegments]
            rfl
          simp only [h first hvariable]

namespace AgreeOn

theorem push (h : AgreeOn names c c') (scope : Scope) :
    AgreeOn names (c.push scope) (c'.push scope) where
  loader := h.loader
  includes := h.includes
  values := by
    intro name hname
    rw [Context.get?_push, Context.get?_push, h.values name hname]

theorem pushInclude (h : AgreeOn names c c') (name : String) :
    AgreeOn names (c.pushInclude name) (c'.pushInclude name) where
  loader := h.loader
  includes := congrArg (· ++ [name]) h.includes
  values := h.values

/-- An expression has the same value on both sides. -/
theorem resolve?_eq (h : AgreeOn names c c') {e : Expression}
    (hname : ∀ name, e.root? = some name → name ∈ names) :
    e.resolve? c = e.resolve? c' :=
  e.resolve?_congr fun name hroot => h.values name (hname name hroot)

theorem inclusionLoader_eq (h : AgreeOn names c c') (name : String) :
    inclusionLoader c name = inclusionLoader c' name := by
  simp only [inclusionLoader, h.loader, h.includes]

end AgreeOn

end Agreement

section Pieces

variable {env : Environment} {names : Set String}

/-- What both sides keep while they are rendered: the names have the same values,
and all templates that can be included mention only these names. -/
theorem agreement_agreeOn (env : Environment) (names : Set String) :
    Agreement (fun c c' => LoadsWithin env names c ∧ AgreeOn names c c')
      fun e => ∀ name, e.root? = some name → name ∈ names where
  push h scope := ⟨h.1, h.2.push scope⟩
  resolve? h _ hname := h.2.resolve?_eq hname

theorem dependsOnly_iff {body : Context → Rendered} :
    DependsOnly env names body ↔
      SideBySide (fun c c' => LoadsWithin env names c ∧ AgreeOn names c c')
        (fun _ => False) body := by
  simp only [DependsOnly, SideBySide, sameOr_false_iff, and_imp]

/-- Both sides load the same template, which names variables of the set only. -/
theorem DependsOnly.renderInclusion {included : List Node → Context → Rendered}
    (hincluded : ReadsOnly env names included) (name : String) :
    DependsOnly env names (renderInclusion env.files included name) := by
  intro c c' hloads h
  unfold Templating.renderInclusion
  rw [← h.inclusionLoader_eq]
  cases hloader : inclusionLoader c name with
  | error e => rfl
  | ok loader =>
      cases hload : loader.load env.files name with
      | error e =>
          simp only [hload]
          rfl
      | ok template =>
          have hsome : c.loader = some loader :=
            (inclusionLoader_eq_ok_iff.1 hloader).1
          obtain ⟨path, source, -, -, hparse⟩ := Loader.load_eq_ok hload
          have hnames := hloads loader hsome name template hload
          simp only [hload]
          exact hincluded template.nodes (parseTokens_builtin hparse) hnames
            _ _ hloads (h.pushInclude name)

/-- With any bound on the nesting of inclusions, rendering reads only the variables
that are named. -/
theorem renderWithin_readsOnly (depth : Nat) :
    ReadsOnly env names (renderWithin env depth) := by
  induction depth with
  | zero => exact fun _ _ _ _ _ _ _ => rfl
  | succ depth ih =>
      intro nodes hbuiltin hnames
      refine dependsOnly_iff.2 ?_
      exact renderNodes_sideBySide (agreement_agreeOn env names)
        (context_renderWithin env depth)
        (fun name => dependsOnly_iff.1 (.renderInclusion ih name))
        nodes hbuiltin hnames

end Pieces

section Templates

/-- **Rendering depends only on the variables that are named** in the template and
in the files that it can include. -/
theorem Template.result_eq_of_agreeOn {env : Environment} {names : Set String}
    {t : Template} (hbuiltin : AllBuiltin t.nodes)
    (hnames : NamesWithin names (expressionsOf t.nodes)) {c c' : Context}
    (hloads : LoadsWithin env names c) (h : AgreeOn names c c') :
    t.result env c = t.result env c' := by
  -- the numbers of names that can be included differ: the bound is above both
  let count c := (includableNames env.files t.nodes c).length
  have hdepth : count c < count c + count c' + 1 := by omega
  have hdepth' : count c' < count c + count c' + 1 := by omega
  have houtcome := renderWithin_readsOnly (count c + count c' + 1) t.nodes
    hbuiltin hnames c c' hloads h
  exact (renderResult_eq_iff hdepth).2
    (houtcome.trans (outcome_renderWithin hdepth'))

/-- A file that shows a title. -/
def titleFile : Environment where
  files := ⟨[("title", .text "\x7b\x7b title \x7d\x7d")], []⟩
  clock := ⟨0, 0, 0⟩

/-- A list below an included title. -/
def titledList : Template :=
  ⟨none,
    [.inclusion ⟨"'title'"⟩,
      .loop "x" ⟨"items"⟩ [.placeholder ⟨"x"⟩] []]⟩

/-- The variables of the list and of the title in one scope. -/
def listContext : Context :=
  ⟨[], [("items", .array [.string "a", .string "b"]), ("title", .string "T")],
    some ⟨["."], false⟩, []⟩

/-- The same variables in two scopes, and others. -/
def nestedListContext : Context :=
  ⟨[[("items", .array [.string "a", .string "b"])],
      [("title", .string "T"), ("user", .null)]],
    [("items", .null), ("title", .string "hidden")],
    some ⟨["."], false⟩, []⟩

/-- The list is the same in both contexts. -/
theorem result_titledList_eq :
    AllBuiltin titledList.nodes ∧
      NamesWithin {"items", "title", "x"} (expressionsOf titledList.nodes) ∧
      LoadsWithin titleFile {"items", "title", "x"} listContext ∧
      AgreeOn {"items", "title", "x"} listContext nestedListContext ∧
      titledList.result titleFile listContext =
        titledList.result titleFile nestedListContext := by
  have hbuiltin : AllBuiltin titledList.nodes :=
    ⟨trivial, ⟨⟨trivial, trivial⟩, trivial⟩, trivial⟩
  have hquoted : Expression.root? ⟨"'title'"⟩ = none := by decide
  have hitems : Expression.root? ⟨"items"⟩ = some "items" := by decide
  have hitem : Expression.root? ⟨"x"⟩ = some "x" := by decide
  have htitle : Expression.root? ⟨"title"⟩ = some "title" := by decide
  have hnames : NamesWithin {"items", "title", "x"}
      (expressionsOf titledList.nodes) := by
    simp [NamesWithin, titledList, expressionsOf, Node.expressions, hquoted,
      hitems, hitem]
  have hloads : LoadsWithin titleFile {"items", "title", "x"}
      listContext := by
    intro loader hloader name template hload
    obtain ⟨path, source, -, hread, hparse⟩ := Loader.load_eq_ok hload
    have hsource : source ∈ ["\x7b\x7b title \x7d\x7d"] :=
      FileTree.mem_texts_of_read hread
    obtain rfl := List.mem_singleton.1 hsource
    cases hloader
    have hnodes : parseTokens false (Token.tokenize "\x7b\x7b title \x7d\x7d") =
        .ok [.placeholder ⟨"title"⟩] := by cbv
    rw [hnodes] at hparse
    rw [← Except.ok.inj hparse]
    simp [NamesWithin, expressionsOf, Node.expressions, htitle]
  have hagree : AgreeOn {"items", "title", "x"} listContext
      nestedListContext := by
    refine ⟨rfl, rfl, ?_⟩
    rintro name (rfl | rfl | rfl)
    · rfl
    · rfl
    · rfl
  exact ⟨hbuiltin, hnames, hloads, hagree,
    Template.result_eq_of_agreeOn hbuiltin hnames hloads hagree⟩

end Templates

end Templating
