import Templating.Proofs.ContextRestored
import Templating.Proofs.RenderResult
import Templating.Proofs.SourceCuts

/-!
# One source behind another

Two sources written one behind the other give the nodes of the first and then the
nodes of the second, if nothing in the first can reach across the seam: it leaves
no tag open, and its texts cannot begin a tag with what follows.

**Scanner.**  The cuts of the two sources make up the cut of the whole, where the
last text of the first cut runs into the first text of the second (`Cut.append`).

**Parser.**  A pass that stands outside all tags goes on as from the start, with
the nodes it has in front (`Pass.run_behind`).

**Renderer.**  Nodes in a row are rendered one part after the other, and the first
part leaves the context as it was.

The two texts at the seam are one token and one node of the whole, and two of the
parts. `Joined` says so for tokens and for nodes.

Main statement: `Template.concatenation`.
-/

namespace Templating

open Text Token

section Joined

/-- One list behind the other, where a text at the end of the first and a text at
the front of the second may have become one. -/
inductive Joined {α : Type} (text : String → α) :
    List α → List α → List α → Prop
  | apart (first second : List α) :
      Joined text first second (first ++ second)
  | merged (front : List α) (s s' : String) (back : List α) :
      Joined text (front ++ [text s]) (text s' :: back)
        (front ++ text (s ++ s') :: back)

theorem Joined.append_left {α : Type} {text : String → α}
    {first second joined : List α} (front : List α)
    (h : Joined text first second joined) :
    Joined text (front ++ first) second (front ++ joined) := by
  cases h with
  | apart =>
      rw [← List.append_assoc]
      exact .apart _ _
  | merged front' s s' back =>
      rw [← List.append_assoc, ← List.append_assoc]
      exact .merged _ _ _ _

end Joined

section Cuts

/-- A text with which no tag can begin, whatever stands behind it. -/
structure SealedText (text : List Char) : Prop where
  noOpening : ∀ kind : Kind, kind ≠ .text → ¬ kind.opening <:+: text
  noBrace : text.getLast? ≠ some '{'

/-- Without an opening brace, a text is sealed. -/
theorem SealedText.of_not_mem {text : List Char} (h : '{' ∉ text) :
    SealedText text where
  noOpening := by
    intro kind hkind hwithin
    obtain ⟨mark, hmark⟩ := Kind.exists_opening hkind
    rw [hmark] at hwithin
    exact h (hwithin.subset List.mem_cons_self)
  noBrace := fun hlast => h (List.mem_of_getLast? hlast)

theorem SealedText.noTagWithin {text : List Char} (h : SealedText text)
    (rest : List Char) : NoTagWithin text rest := by
  rintro before after rfl hafter ⟨tag, behind, hsource⟩
  obtain ⟨mark, -, hmark⟩ := tag.exists_mark
  rw [RawTag.source_eq hmark] at hsource
  rcases after with _ | ⟨c, _ | ⟨d, after⟩⟩
  · exact hafter rfl
  · -- the text ends behind the first character of the mark
    obtain ⟨rfl, -⟩ : '{' = c ∧ _ := by simpa using hsource
    exact h.noBrace (by simp)
  · obtain ⟨rfl, rfl, -⟩ : '{' = c ∧ mark = d ∧ _ := by simpa using hsource
    refine h.noOpening tag.kind tag.kind_ne_text ⟨before, after, ?_⟩
    simp [hmark]

namespace Cut

/-- The cut with a text in front. -/
def prependText (front : List Char) : Cut → Cut
  | last text => last (front ++ text)
  | cons text tag rest => cons (front ++ text) tag rest

/-- The cut of one source behind another. -/
def append : Cut → Cut → Cut
  | last text, next => next.prependText text
  | cons text tag rest, next => cons text tag (rest.append next)

/-- No tag can begin in a text of the cut and end behind it. -/
def Sealed : Cut → Prop
  | last text => SealedText text
  | cons text _ rest => SealedText text ∧ rest.Sealed

theorem source_prependText (front : List Char) (cut : Cut) :
    (cut.prependText front).source = front ++ cut.source := by
  cases cut with
  | last text => rfl
  | cons text tag rest => simp [prependText, source]

theorem source_append (first second : Cut) :
    (first.append second).source = first.source ++ second.source := by
  induction first with
  | last text => exact source_prependText text second
  | cons text tag rest ih => simp [append, source, ih]

theorem Valid.prependText {cut : Cut} (h : cut.Valid) {front : List Char}
    (hfront : NoTagWithin front cut.source) : (cut.prependText front).Valid := by
  cases cut with
  | last text =>
      refine noTagWithin_append_iff.2 ⟨?_, h⟩
      rwa [List.append_nil]
  | cons text tag rest => exact ⟨noTagWithin_append_iff.2 ⟨hfront, h.1⟩, h.2⟩

/-- Behind a sealed cut, any other valid cut keeps the whole valid. -/
theorem Valid.append {first second : Cut} (hfirst : first.Valid)
    (hsealed : first.Sealed) (hsecond : second.Valid) :
    (first.append second).Valid := by
  induction first with
  | last text => exact hsecond.prependText (hsealed.noTagWithin _)
  | cons text tag rest ih =>
      refine ⟨hsealed.1.noTagWithin _, ?_, ih hfirst.2.2 hsealed.2⟩
      exact RawTag.closesFirst_iff.2 (RawTag.closesFirst_iff.1 hfirst.2.1)

/-- Two runs of text in a row make one token, unless one of them is empty. -/
theorem joined_textRun (front text : List Char) (back : List Token) :
    Joined Token.text (textRun front) (textRun text ++ back)
      (textRun (front ++ text) ++ back) := by
  cases front with
  | nil => exact .apart [] _
  | cons c front =>
      cases text with
      | nil =>
          rw [List.append_nil]
          exact .apart _ back
      | cons d text =>
          have hmerged : Joined Token.text _ _ _ := .merged []
            (String.ofList (c :: front)) (String.ofList (d :: text)) back
          rw [← String.ofList_append] at hmerged
          exact hmerged

theorem joined_prependText (front : List Char) (cut : Cut) :
    Joined Token.text (textRun front) cut.tokens
      (cut.prependText front).tokens := by
  cases cut with
  | last text =>
      have h := joined_textRun front text []
      rwa [List.append_nil, List.append_nil] at h
  | cons text tag rest => exact joined_textRun front text _

/-- The tokens of the whole are those of the parts, joined. -/
theorem joined_append (first second : Cut) :
    Joined Token.text first.tokens second.tokens
      (first.append second).tokens := by
  induction first with
  | last text => exact joined_prependText text second
  | cons text tag rest ih =>
      have h := ih.append_left (textRun text ++ [tag.token])
      simpa [append, tokens] using h

theorem sealed_of_textRun {text : List Char}
    (h : ∀ token ∈ textRun text, token.kind = .text →
      SealedText token.payload.toList) : SealedText text := by
  cases text with
  | nil => exact .of_not_mem List.not_mem_nil
  | cons c text =>
      have hsealed := h _ (List.mem_singleton_self _) rfl
      simpa [Token.text] using hsealed

/-- A cut is sealed if its text tokens are; an empty text gives no token. -/
theorem sealed_of_tokens {cut : Cut}
    (h : ∀ token ∈ cut.tokens, token.kind = .text →
      SealedText token.payload.toList) : cut.Sealed := by
  induction cut with
  | last text => exact sealed_of_textRun h
  | cons text tag rest ih =>
      refine ⟨sealed_of_textRun fun token htoken => ?_, ih fun token htoken => ?_⟩
      · exact h token (List.mem_append_left _ htoken)
      · exact h token (List.mem_append_right _ (List.mem_cons_of_mem _ htoken))

end Cut

/-- The tokens of one source behind another are those of the sources, joined. -/
theorem joined_tokenize {first second : String}
    (hsealed : ∀ token ∈ tokenize first, token.kind = .text →
      SealedText token.payload.toList) :
    Joined Token.text (tokenize first) (tokenize second)
      (tokenize (first ++ second)) := by
  obtain ⟨cut₁, hsource₁, hvalid₁⟩ := Cut.exists_valid first.toList
  obtain ⟨cut₂, hsource₂, hvalid₂⟩ := Cut.exists_valid second.toList
  have htokens₁ := Cut.tokenize_of_source_eq hsource₁ hvalid₁
  have htokens₂ := Cut.tokenize_of_source_eq hsource₂ hvalid₂
  rw [htokens₁] at hsealed
  have hvalid := hvalid₁.append (Cut.sealed_of_tokens hsealed) hvalid₂
  have hsource : (cut₁.append cut₂).source = (first ++ second).toList := by
    rw [Cut.source_append, hsource₁, hsource₂, String.toList_append]
  rw [htokens₁, htokens₂, Cut.tokenize_of_source_eq hsource hvalid]
  exact Cut.joined_append cut₁ cut₂

end Cuts

section Passes

namespace Pass

variable {strict : Bool}

/-- The pass with nodes in front of all others. -/
def behind (s : Pass) (nodes : List Node) : Pass :=
  ⟨nodes ++ s.bottom, s.tags⟩

@[simp] theorem stops_behind (s : Pass) (nodes : List Node) :
    (s.behind nodes).stops = s.stops := rfl

theorem add_behind (s : Pass) (nodes more : List Node) :
    (s.behind nodes).add more = (s.add more).behind nodes := by
  obtain ⟨bottom, tags⟩ := s
  cases tags with
  | nil => simp [add, behind]
  | cons f outer => rfl

theorem stop_behind (s : Pass) (nodes : List Node) (name : String) :
    (s.behind nodes).stop name = (s.stop name).behind nodes := by
  obtain ⟨bottom, tags⟩ := s
  cases tags with
  | nil => rfl
  | cons f outer =>
      simp only [stop, behind]
      split
      · exact add_behind ⟨bottom, outer⟩ nodes [f.node]
      · rfl

theorem follow_behind (s : Pass) (nodes : List Node) (directive : Directive) :
    (s.behind nodes).follow directive = (s.follow directive).behind nodes := by
  cases directive with
  | leaf node => exact add_behind s nodes [node]
  | opens tag => rfl

/-- Nodes in front do not change what a step does. -/
theorem step_behind (s : Pass) (nodes : List Node) (token : Token) :
    (s.behind nodes).step strict token =
      (s.step strict token).map (·.behind nodes) := by
  unfold step
  split
  · simp only [add_behind, Except.map]
  · simp only [add_behind, Except.map]
  · rfl
  · unfold block
    rw [stops_behind]
    split
    · rfl
    · split
      · simp only [stop_behind, Except.map]
      · split
        · next directive _ =>
            cases directive with
            | error e => rfl
            | ok directive => simp only [Except.map, follow_behind]
        · split <;> rfl

/-- A pass behind nodes gives these nodes and then what it would give without
them. -/
theorem run_behind (s : Pass) (nodes : List Node) (tokens : List Token) :
    (s.behind nodes).run strict tokens =
      ((s.run strict tokens).1.map (nodes ++ ·), (s.run strict tokens).2) := by
  induction tokens generalizing s with
  | nil =>
      obtain ⟨bottom, tags⟩ := s
      cases tags <;> rfl
  | cons token rest ih =>
      have hstep : (s.behind nodes).step strict token =
          (s.step strict token).map (·.behind nodes) := step_behind s nodes token
      cases hs : s.step strict token with
      | ok t =>
          rw [hs] at hstep
          rw [run_cons hstep, run_cons hs]
          exact ih t
      | error e =>
          rw [hs] at hstep
          rw [run_cons_error hstep, run_cons_error hs]
          rfl

/-- Tokens that are parsed to nodes leave the pass outside all tags. -/
theorem through_of_run {s : Pass} {tokens : List Token} {nodes : List Node}
    (h : (s.run strict tokens).1 = .ok nodes) :
    s.through strict tokens = .ok (start.behind nodes) := by
  induction tokens generalizing s with
  | nil =>
      obtain ⟨bottom, tags⟩ := s
      cases tags with
      | nil =>
          cases h
          simp [through, behind, start]
      | cons f outer => cases h
  | cons token tokens ih =>
      cases hstep : s.step strict token with
      | ok next =>
          rw [run_cons hstep] at h
          rw [through, hstep]
          exact ih h
      | error e =>
          rw [run_cons_error hstep] at h
          cases h

/-- A text at the end of tokens that are parsed to nodes is the last node. -/
theorem through_of_run_text {front : List Token} {content : String}
    {nodes : List Node}
    (h : (start.run strict (front ++ [Token.text content])).1 = .ok nodes) :
    ∃ before, nodes = before ++ [.text content] ∧
      start.through strict front = .ok (start.behind before) := by
  have hthrough := through_of_run h
  rw [through_append] at hthrough
  cases hfront : start.through strict front with
  | error e =>
      rw [hfront] at hthrough
      cases hthrough
  | ok s =>
      rw [hfront] at hthrough
      have hadd : s.add [.text content] = start.behind nodes :=
        Except.ok.inj hthrough
      obtain ⟨bottom, tags⟩ := s
      cases tags with
      | nil =>
          obtain ⟨hnodes, -⟩ := Pass.mk.inj hadd
          refine ⟨bottom, ?_, ?_⟩
          · simpa [start] using hnodes.symm
          · simp [behind, start]
      | cons f outer =>
          obtain ⟨-, htags⟩ := Pass.mk.inj hadd
          cases htags

theorem run_text (content : String) (tokens : List Token) :
    (start.run strict (Token.text content :: tokens)).1 =
      (start.run strict tokens).1.map (.text content :: ·) := by
  have hstep : start.step strict (Token.text content) =
      .ok (start.behind [.text content]) := rfl
  rw [run_cons hstep, run_behind]
  rfl

end Pass

/-- **Joined tokens are parsed to joined nodes**, or to the error of the second
part. -/
theorem parseTokens_joined {strict : Bool} {first second joined : List Token}
    (h : Joined Token.text first second joined) {nodes : List Node}
    (hfirst : parseTokens strict first = .ok nodes) :
    (∀ e, parseTokens strict second = .error e →
        parseTokens strict joined = .error e) ∧
      ∀ more, parseTokens strict second = .ok more →
        ∃ all, parseTokens strict joined = .ok all ∧
          Joined Node.text nodes more all := by
  simp only [parseTokens_eq_run] at hfirst ⊢
  cases h with
  | apart =>
      have hjoined : (Pass.start.run strict (first ++ second)).1 =
          (Pass.start.run strict second).1.map (nodes ++ ·) := by
        rw [Pass.run_append (Pass.through_of_run hfirst), Pass.run_behind]
      rw [hjoined]
      refine ⟨fun e hsecond => ?_, fun more hsecond => ?_⟩
      · rw [hsecond]
        rfl
      · rw [hsecond]
        exact ⟨nodes ++ more, rfl, .apart nodes more⟩
  | merged front s s' back =>
      obtain ⟨before, rfl, hfront⟩ := Pass.through_of_run_text hfirst
      rw [Pass.run_append hfront, Pass.run_behind, Pass.run_text, Pass.run_text]
      cases (Pass.start.run strict back).1 with
      | ok after =>
          refine ⟨fun e hsecond => (by cases hsecond), fun more hsecond => ?_⟩
          cases hsecond
          exact ⟨_, rfl, .merged before s s' after⟩
      | error e =>
          refine ⟨fun e' hsecond => ?_, fun more hsecond => (by cases hsecond)⟩
          cases hsecond
          rfl

end Passes

section Rendering

namespace Rendered

theorem ok_followedBy (c : Context) (next : Context → Rendered) :
    (ok "" c).followedBy next = next c := by
  have hid : (fun s => "" ++ s) = (id : String → String) :=
    funext fun s => String.empty_append
  simp only [followedBy, ok, hid, Outcome.map_id, List.nil_append]

/-- Renderings in a row can be grouped in any way. -/
theorem followedBy_assoc (r : Rendered) (next last : Context → Rendered) :
    (r.followedBy next).followedBy last =
      r.followedBy fun c => (next c).followedBy last := by
  obtain ⟨outcome, context, inclusions⟩ := r
  cases outcome with
  | error e => rfl
  | exhausted => rfl
  | ok s =>
      simp only [followedBy]
      cases hnext : (next context).outcome with
      | error e => simp only [hnext, Outcome.map]
      | exhausted => simp only [hnext, Outcome.map]
      | ok s' =>
          simp only [Outcome.map, List.append_assoc]
          cases (last (next context).context).outcome with
          | error e => rfl
          | exhausted => rfl
          | ok s'' => simp only [String.append_assoc]

end Rendered

variable {env : Environment} {included : List Node → Context → Rendered}

theorem renderNodes_append (first second : List Node) (c : Context) :
    renderNodes env included (first ++ second) c =
      (renderNodes env included first c).followedBy
        (renderNodes env included second) := by
  induction first generalizing c with
  | nil =>
    simp only [List.nil_append, renderNodes, Rendered.ok_followedBy]
  | cons node first ih =>
      have hrest : renderNodes env included (first ++ second) =
          fun c => (renderNodes env included first c).followedBy
            (renderNodes env included second) := funext ih
      simp only [List.cons_append, renderNodes, Rendered.followedBy_assoc, hrest]

/-- Two texts in a row are rendered as one. -/
theorem renderNodes_text_append (s s' : String) (back : List Node)
    (c : Context) :
    renderNodes env included (.text (s ++ s') :: back) c =
      (renderNodes env included [.text s] c).followedBy
        (renderNodes env included (.text s' :: back)) := by
  have hfirst : renderNodes env included [.text s] c = .ok (s ++ "") c := by
    simp only [renderNodes, Node.render]
    rfl
  have htexts : (Rendered.ok s c).followedBy (Rendered.ok s') =
      .ok (s ++ s') c := rfl
  rw [hfirst, String.append_empty]
  simp only [renderNodes, Node.render]
  rw [← htexts, Rendered.followedBy_assoc]

/-- **Joined nodes are rendered one part after the other.** -/
theorem renderNodes_joined {first second joined : List Node}
    (h : Joined Node.text first second joined) (c : Context) :
    renderNodes env included joined c =
      (renderNodes env included first c).followedBy
        (renderNodes env included second) := by
  cases h with
  | apart => exact renderNodes_append first second c
  | merged front s s' back =>
      have htexts : renderNodes env included (.text (s ++ s') :: back) =
          fun c => (renderNodes env included [.text s] c).followedBy
            (renderNodes env included (.text s' :: back)) :=
        funext (renderNodes_text_append s s' back)
      rw [renderNodes_append, renderNodes_append, Rendered.followedBy_assoc,
        htexts]

/-- The result of joined nodes is that of the first part and then that of the
second, both in the same context. -/
theorem renderResult_joined {first second joined : List Node}
    (h : Joined Node.text first second joined) (env : Environment)
    (c : Context) :
    renderResult env joined c = (do
      let s ← renderResult env first c
      let s' ← renderResult env second c
      return s ++ s') := by
  -- one bound that is large enough for both parts and for the whole
  let count nodes := (includableNames env.files nodes c).length
  let depth := count first + count second + count joined
  have hresult : ∀ nodes, count nodes ≤ depth →
      (renderNodes env (renderWithin env depth) nodes c).outcome =
        .ofExcept (renderResult env nodes c) :=
    fun nodes hle => outcome_renderWithin (Nat.lt_succ_of_le hle)
  have hfirst := hresult first (by omega)
  have hsecond := hresult second (by omega)
  have hjoined := hresult joined (by omega)
  have hcontext := context_renderNodes env (context_renderWithin env depth) first c
  rw [renderNodes_joined h c] at hjoined
  cases hs : renderResult env first c with
  | error e =>
      rw [hs] at hfirst
      rw [Rendered.outcome_followedBy_of_error hfirst] at hjoined
      exact Outcome.ofExcept_injective hjoined.symm
  | ok s =>
      rw [hs] at hfirst
      rw [Rendered.outcome_followedBy_of_ok hfirst, hcontext, hsecond,
        Outcome.map_ofExcept] at hjoined
      rw [← Outcome.ofExcept_injective hjoined]
      cases renderResult env second c <;> rfl

end Rendering

section Templates

theorem Template.parse_eq_ok_iff {strict : Bool} {source : String}
    {t : Template} :
    parse strict source = .ok t ↔
      ∃ nodes, parseTokens strict (tokenize source) = .ok nodes ∧
        t = ⟨none, nodes⟩ := by
  unfold parse
  cases parseTokens strict (tokenize source) with
  | ok nodes => simp [Except.map, eq_comm]
  | error e => simp [Except.map]

theorem Template.parse_eq_error_iff {strict : Bool} {source : String}
    {e : ParseError} :
    parse strict source = .error e ↔
      parseTokens strict (tokenize source) = .error e := by
  unfold parse
  cases parseTokens strict (tokenize source) with
  | ok nodes => simp [Except.map]
  | error e' => simp [Except.map]

/-- **One source behind another.** The whole is parsed just when the second source
is, with the same error otherwise, and its result is the output of the first source
and then that of the second, or the first error. -/
theorem Template.concatenation {strict : Bool} {first second : String}
    {t₁ : Template} (hparse : parse strict first = .ok t₁)
    (hsealed : ∀ token ∈ tokenize first, token.kind = .text →
      SealedText token.payload.toList) :
    (∀ e, parse strict (first ++ second) = .error e ↔
        parse strict second = .error e) ∧
      ∀ t₂, parse strict second = .ok t₂ →
        ∃ t, parse strict (first ++ second) = .ok t ∧
          ∀ env c, t.result env c = (do
            let s ← t₁.result env c
            let s' ← t₂.result env c
            return s ++ s') := by
  obtain ⟨nodes, hnodes, rfl⟩ := parse_eq_ok_iff.1 hparse
  have htokens : Joined Token.text (tokenize first) (tokenize second)
      (tokenize (first ++ second)) := joined_tokenize hsealed
  obtain ⟨herror, hok⟩ := parseTokens_joined htokens hnodes
  refine ⟨fun e => ?_, fun t₂ hsecond => ?_⟩
  · rw [parse_eq_error_iff, parse_eq_error_iff]
    refine ⟨fun hwhole => ?_, herror e⟩
    cases hsecond : parseTokens strict (tokenize second) with
    | error e' =>
        rw [herror e' hsecond] at hwhole
        exact hwhole
    | ok more =>
        obtain ⟨all, hall, -⟩ := hok more hsecond
        rw [hall] at hwhole
        cases hwhole
  · obtain ⟨more, hmore, rfl⟩ := parse_eq_ok_iff.1 hsecond
    obtain ⟨all, hall, hjoined⟩ := hok more hmore
    refine ⟨⟨none, all⟩, parse_eq_ok_iff.2 ⟨all, hall, rfl⟩, fun env c => ?_⟩
    exact renderResult_joined hjoined env c

/-- A letter begins with a name. -/
def salutation : String := "Dear \x7b\x7b name \x7d\x7d, "

/-- Its body has a condition behind a text. -/
def reminder : String := "it is \x7b% if late %\x7dlate\x7b% endif %\x7d."

/-- The letter is its two parts, whose texts meet at the seam. -/
theorem concatenation_letter :
    ∃ t₁ t₂ t,
      Template.parse true salutation = .ok t₁ ∧
      Template.parse true reminder = .ok t₂ ∧
      Template.parse true (salutation ++ reminder) = .ok t ∧
      ∀ env c, t.result env c = (do
        let s ← t₁.result env c
        let s' ← t₂.result env c
        return s ++ s') := by
  have hfirst : Template.parse true salutation =
      .ok ⟨none, [.text "Dear ", .placeholder ⟨"name"⟩, .text ", "]⟩ := by cbv
  have hsecond : Template.parse true reminder =
      .ok ⟨none, [.text "it is ", .branch ⟨"late"⟩ [.text "late"] [],
        .text "."]⟩ := by cbv
  have htokens : tokenize salutation =
      [⟨.text, "Dear "⟩, ⟨.placeholder, "name"⟩, ⟨.text, ", "⟩] := by cbv
  have hsealed : ∀ token ∈ tokenize salutation, token.kind = .text →
      SealedText token.payload.toList := by
    rw [htokens]
    rintro token htoken -
    refine .of_not_mem ?_
    revert token
    decide
  obtain ⟨t, hwhole, hresult⟩ :=
    (Template.concatenation hfirst hsealed).2 _ hsecond
  exact ⟨_, _, t, hfirst, hsecond, hwhole, hresult⟩

end Templates

end Templating
