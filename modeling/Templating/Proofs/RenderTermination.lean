import Mathlib
import Templating.Proofs.InclusionChain
import Templating.Proofs.IncludableNames

/-!
# Rendering comes to an end

A name can be spelled in infinitely many ways, and names can be computed, so that
the check of the chain alone does not bound the nesting of inclusions.  But all
names that come up in one rendering are in a finite list: the quoted names of the
template and of the files, and the texts of the values that can be reached from
the first context.

**Invariant.**  The nodes that are left quote names of the list, and the scopes
that are or will be pushed bind values that can be reached (`Stage.Within`).  So
the inclusions in progress have names of the list, and as these are different
(`Chained`), there are no more of them than names.

Main statements: `length_openNames_le`, `render_ne_exhausted`, and
`render_terminates`.
-/

namespace Templating

section Within

/-- The nodes quote names of a list, and bind values of a set around bodies. -/
structure NodesWithin (S : Value → Prop) (names : List String)
    (nodes : List Node) : Prop where
  literals : literalsOf nodes ⊆ names
  bindings : ∀ scope ∈ bindingsOf nodes, scope.Within S

/-- What is still to be done with nodes, scopes and names within bounds. -/
def Task.Within (S : Value → Prop) (names : List String) : Task → Prop
  | .nodes rest => NodesWithin S names rest
  | .each body scopes =>
      NodesWithin S names body ∧ ∀ scope ∈ scopes, scope.Within S
  | .leaveInclusion name => name ∈ names
  | .emit _ => True
  | .leaveScope => True

/-- A stage that stays within a set of values and a list of names. -/
structure Stage.Within (S : Value → Prop) (names : List String)
    (m : Stage) : Prop where
  tasks : ∀ task ∈ m.tasks, task.Within S names
  context : m.context.Within S

variable {S : Value → Prop} {names : List String}

theorem Context.Within.push {c : Context} (h : c.Within S) {scope : Scope}
    (hscope : scope.Within S) : (c.push scope).Within S :=
  List.forall_mem_cons.2 ⟨hscope, h⟩

theorem Context.Within.pop {c : Context} (h : c.Within S) :
    c.pop.2.Within S := by
  unfold Context.pop
  split
  · exact h
  · next scope rest hinner =>
      intro other hother
      refine h other ?_
      simp only [Context.scopes, hinner, List.cons_append]
      exact List.mem_cons_of_mem _ hother

theorem Context.Within.popInclude {c : Context} (h : c.Within S) :
    c.popInclude.2.Within S := h

theorem Task.abandon_within (task : Task) {c : Context} (h : c.Within S) :
    (task.abandon c).Within S := by
  cases task with
  | leaveScope => exact h.pop
  | leaveInclusion name => exact h.popInclude
  | nodes rest => exact h
  | each body scopes => exact h
  | emit text => exact h

namespace NodesWithin

theorem mono {nodes more : List Node} (h : NodesWithin S names nodes)
    (hliterals : literalsOf more ⊆ literalsOf nodes)
    (hbindings : bindingsOf more ⊆ bindingsOf nodes) :
    NodesWithin S names more :=
  ⟨fun _ hname => h.literals (hliterals hname),
    fun scope hscope => h.bindings scope (hbindings hscope)⟩

theorem tail {node : Node} {rest : List Node}
    (h : NodesWithin S names (node :: rest)) : NodesWithin S names rest :=
  h.mono (List.subset_append_right _ _) (List.subset_append_right _ _)

theorem head {node : Node} {rest body : List Node}
    (h : NodesWithin S names (node :: rest))
    (hliterals : literalsOf body ⊆ node.inclusionLiterals)
    (hbindings : bindingsOf body ⊆ node.bindings) :
    NodesWithin S names body :=
  h.mono (List.subset_append_of_subset_left _ hliterals)
    (List.subset_append_of_subset_left _ hbindings)

end NodesWithin

end Within

section Step

variable {env : Environment} {S : Value → Prop} {names : List String}

theorem nodesWithin_of_load {loader : Loader} {name : String}
    {template : Template}
    (hfiles : fileLiterals env.files loader.strict ⊆ names)
    (hload : loader.load env.files name = .ok template) :
    NodesWithin S names template.nodes := by
  refine ⟨fun _ h => hfiles (literalsOf_subset_of_load hload h), ?_⟩
  obtain ⟨path, source, -, -, hparse⟩ := Loader.load_eq_ok hload
  rw [bindingsOf_eq_nil (parseTokens_builtin hparse)]
  rintro scope ⟨⟩

/-- A node begins within the bounds of its list. -/
theorem begin_within (hspelled : Spelled S names) {node : Node}
    {rest : List Node} {tasks : List Task} {c : Context} {s : String}
    (hfiles : ∀ loader, c.loader = some loader →
      fileLiterals env.files loader.strict ⊆ names)
    (hnodes : NodesWithin S names (node :: rest))
    (htasks : ∀ task ∈ tasks, task.Within S names) (hc : c.Within S) :
    (node.begin env tasks c s).Within S names := by
  have hcons : ∀ {task : Task}, task.Within S names →
      ∀ t ∈ task :: tasks, t.Within S names :=
    fun h => List.forall_mem_cons.2 ⟨h, htasks⟩
  cases node with
  | text content => exact ⟨htasks, hc⟩
  | placeholder expression => exact ⟨htasks, hc⟩
  | now format => exact ⟨htasks, hc⟩
  | simple handler => exact ⟨htasks, hc⟩
  | loop item source body otherwise =>
      have hbody : NodesWithin S names body := hnodes.head
        (List.subset_append_left _ _) (List.subset_append_left _ _)
      have hotherwise : NodesWithin S names otherwise := hnodes.head
        (List.subset_append_right _ _) (List.subset_append_right _ _)
      simp only [Node.begin]
      cases hitems : loopItems source c with
      | nil => exact ⟨hcons hotherwise, hc⟩
      | cons v items =>
          rcases loopItems_cases hspelled.closed hc source with hnil | harray
          · rw [hnil] at hitems
            cases hitems
          · rw [hitems] at harray
            exact ⟨hcons ⟨hbody,
              Node.loopFrames_within hspelled.closed harray item⟩, hc⟩
  | branch condition whenTrue whenFalse =>
      simp only [Node.begin]
      split
      · exact ⟨hcons (hnodes.head (List.subset_append_left _ _)
          (List.subset_append_left _ _)), hc⟩
      · exact ⟨hcons (hnodes.head (List.subset_append_right _ _)
          (List.subset_append_right _ _)), hc⟩
  | enclosed frame body =>
      have hbody : NodesWithin S names body := hnodes.head
        (List.Subset.refl _) (List.subset_append_right _ _)
      simp only [Node.begin]
      split
      · exact ⟨List.forall_mem_cons.2 ⟨hbody, hcons trivial⟩, hc⟩
      · next bindings hbindings =>
          refine ⟨List.forall_mem_cons.2
            ⟨hbody, List.forall_mem_cons.2 ⟨trivial, hcons trivial⟩⟩, hc.push ?_⟩
          refine hnodes.bindings bindings ?_
          simp [bindingsOf, Node.bindings, hbindings]
  | inclusion name =>
      have hname : name.outputText c ∈ names :=
        Expression.outputText_mem hspelled hc fun s hs =>
          hnodes.literals (by simp [literalsOf, Node.inclusionLiterals, hs])
      simp only [Node.begin, beginInclusion]
      cases hguard : inclusionLoader c (name.outputText c) with
      | error e => exact ⟨htasks, hc⟩
      | ok loader =>
          simp only
          cases hload : loader.load env.files (name.outputText c) with
          | error e => exact ⟨htasks, hc⟩
          | ok template =>
              have hloader := (inclusionLoader_eq_ok_iff.1 hguard).1
              exact ⟨List.forall_mem_cons.2
                ⟨nodesWithin_of_load (hfiles loader hloader) hload,
                  hcons hname⟩, hc⟩

theorem Stage.Within.step (hspelled : Spelled S names) {m n : Stage}
    (hfiles : ∀ loader, m.context.loader = some loader →
      fileLiterals env.files loader.strict ⊆ names)
    (h : m.Within S names) (hstep : m.step env = some n) :
    n.Within S names := by
  obtain ⟨tasks, c, out⟩ := m
  cases tasks with
  | nil => cases hstep
  | cons task tasks =>
      obtain ⟨htask, htasks⟩ := List.forall_mem_cons.1 h.tasks
      cases out with
      | error e =>
          cases hstep
          exact ⟨htasks, task.abandon_within h.context⟩
      | ok s =>
          cases hstep
          cases task with
          | emit text => exact ⟨htasks, h.context⟩
          | leaveScope => exact ⟨htasks, h.context.pop⟩
          | leaveInclusion name => exact ⟨htasks, h.context.popInclude⟩
          | nodes rest =>
              cases rest with
              | nil => exact ⟨htasks, h.context⟩
              | cons node rest =>
                  exact begin_within hspelled hfiles htask
                    (List.forall_mem_cons.2 ⟨htask.tail, htasks⟩) h.context
          | each body scopes =>
              cases scopes with
              | nil => exact ⟨htasks, h.context⟩
              | cons scope scopes =>
                  obtain ⟨hscope, hscopes⟩ := List.forall_mem_cons.1 htask.2
                  refine ⟨?_, h.context.push hscope⟩
                  exact List.forall_mem_cons.2 ⟨htask.1,
                    List.forall_mem_cons.2 ⟨trivial,
                      List.forall_mem_cons.2 ⟨⟨htask.1, hscopes⟩, htasks⟩⟩⟩

end Step

section Bound

variable {env : Environment} {nodes : List Node} {c : Context} {m : Stage}

/-- The quoted names of the files that the loader of a context reads. -/
theorem fileLiterals_subset_includableNames (files : FileTree)
    (nodes : List Node) {c : Context} {loader : Loader}
    (h : c.loader = some loader) :
    fileLiterals files loader.strict ⊆ includableNames files nodes c := by
  intro name hname
  simp only [includableNames, h, Option.map_some, Option.getD_some,
    List.mem_append]
  exact .inl (.inr hname)

theorem start_within (files : FileTree) (nodes : List Node) (c : Context) :
    (Stage.start nodes c).Within (· ∈ reachableValues nodes c)
      (includableNames files nodes c) where
  tasks := by
    refine List.forall_mem_singleton.2 ⟨?_, ?_⟩
    · intro name hname
      simp only [includableNames, List.mem_append]
      exact .inl (.inl (List.mem_cons_of_mem _ hname))
    · exact fun scope hscope =>
        mem_reachableValues (List.mem_append_right _ hscope)
  context := fun scope hscope =>
    mem_reachableValues (List.mem_append_left _ hscope)

/-- Every stage of a rendering stays within the values that can be reached and
the names that an inclusion can resolve to. -/
theorem within_of_leads (h : (Stage.start nodes c).Leads env m) :
    m.Within (· ∈ reachableValues nodes c)
      (includableNames env.files nodes c) := by
  induction h with
  | refl => exact start_within env.files nodes c
  | @tail before after hleads hstep ih =>
      refine ih.step (spelled_includableNames _ _ _) ?_ hstep
      intro loader hloader
      rw [(chained_of_leads hleads).loader] at hloader
      exact fileLiterals_subset_includableNames _ _ hloader

/-- The name that an inclusion resolves to at any stage is in the list. -/
theorem nextName?_mem_includableNames {name : String}
    (h : (Stage.start nodes c).Leads env m) (hname : m.nextName? = some name) :
    name ∈ includableNames env.files nodes c := by
  have hwithin := within_of_leads h
  unfold Stage.nextName? at hname
  split at hname
  · next e rest tasks s htasks _ =>
      cases hname
      have htask := hwithin.tasks _ (by rw [htasks]; exact List.mem_cons_self)
      exact Expression.outputText_mem (spelled_includableNames _ _ _)
        hwithin.context fun s hs =>
          htask.literals (by simp [literalsOf, Node.inclusionLiterals, hs])
  · cases hname

theorem openNames_subset_includableNames
    (h : (Stage.start nodes c).Leads env m) :
    m.openNames ⊆ includableNames env.files nodes c := by
  intro name hname
  obtain ⟨task, htask, hopen⟩ := List.mem_filterMap.1 hname
  have hwithin := (within_of_leads h).tasks task htask
  cases task with
  | leaveInclusion other =>
      cases hopen
      exact hwithin
  | nodes rest => cases hopen
  | each body scopes => cases hopen
  | emit text => cases hopen
  | leaveScope => cases hopen

/-- Inclusions are nested no deeper than there are names for them. -/
theorem length_openNames_le (h : (Stage.start nodes c).Leads env m) :
    m.openNames.length ≤ (includableNames env.files nodes c).dedup.length := by
  have hnodup := (chained_of_leads h).nodup
  have hdedup : m.openNames ⊆ (includableNames env.files nodes c).dedup :=
    fun _ hname => List.mem_dedup.2 (openNames_subset_includableNames h hname)
  exact (hnodup.subperm hdedup).length_le

/-- A bound above the number of names is never reached. -/
theorem renderWithin_ne_exhausted {depth : Nat}
    (hdepth : (includableNames env.files nodes c).length < depth) :
    (renderWithin env depth nodes c).outcome ≠ .exhausted := by
  intro hexhausted
  have hends := renderWithin_ends env depth nodes [] c ""
  unfold Ends at hends
  rw [hexhausted] at hends
  -- a stage with more inclusions open than there are names for them
  obtain ⟨m, hleads, hle⟩ := hends
  have hlength := length_openNames_le hleads
  have hdedup := (List.dedup_sublist (includableNames env.files nodes c)).length_le
  simp only [openNames, List.filterMap_nil, List.length_nil] at hle
  omega

/-- **The bound on the nesting of inclusions is never reached**, for any nodes and
any context. -/
theorem render_ne_exhausted (env : Environment) (nodes : List Node)
    (c : Context) : (render env nodes c).outcome ≠ .exhausted :=
  renderWithin_ne_exhausted (Nat.lt_succ_self _)

/-- The steps of a rendering come to an end, with the outcome and the context that
it has under every bound above the number of names. -/
theorem leads_final_within {depth : Nat}
    (hdepth : (includableNames env.files nodes c).length < depth) :
    ∃ last, (Stage.start nodes c).Leads env last ∧ last.step env = none ∧
      (renderWithin env depth nodes c).outcome = .ofExcept last.output ∧
      (renderWithin env depth nodes c).context = last.context := by
  have hends := renderWithin_ends env depth nodes [] c ""
  change Ends env _ (.start nodes c) [] "" _ at hends
  unfold Ends at hends
  cases houtcome : (renderWithin env depth nodes c).outcome with
  | ok s =>
      simp only [houtcome, String.empty_append] at hends
      exact ⟨_, hends, rfl, rfl, rfl⟩
  | error e =>
      rw [houtcome] at hends
      exact ⟨_, hends, rfl, rfl, rfl⟩
  | exhausted => exact absurd houtcome (renderWithin_ne_exhausted hdepth)

/-- The steps of a rendering come to an end, with its outcome and its context. -/
theorem leads_final (env : Environment) (nodes : List Node) (c : Context) :
    ∃ last, (Stage.start nodes c).Leads env last ∧ last.step env = none ∧
      (render env nodes c).outcome = .ofExcept last.output ∧
      (render env nodes c).context = last.context :=
  leads_final_within (Nat.lt_succ_self _)

end Bound

section Errors

/-- An error of the chain shows a chain without repetitions, and with the name. -/
def RenderError.ShowsCycle : RenderError → Prop
  | .recursiveInclude name including => including.Nodup ∧ name ∈ including
  | _ => True

/-- What is still to be done with nodes that built-in tags make. -/
def Task.IsBuiltin : Task → Prop
  | .nodes rest => AllBuiltin rest
  | .each body _ => AllBuiltin body
  | _ => True

/-- A stage with nodes that built-in tags make, and with such an error if it has
one. -/
structure Stage.IsBuiltin (m : Stage) : Prop where
  tasks : ∀ task ∈ m.tasks, task.IsBuiltin
  error : ∀ e, m.output = .error e → e.ShowsCycle

theorem inclusionLoader_showsCycle {c : Context} {name : String}
    {e : RenderError} (hc : c.includes.Nodup)
    (h : inclusionLoader c name = .error e) : e.ShowsCycle := by
  unfold inclusionLoader at h
  split at h
  · cases h
    trivial
  · split at h
    · next hmem =>
        cases h
        exact ⟨hc, List.contains_iff_mem.1 hmem⟩
    · cases h

theorem renderNow_showsCycle {clock : Clock} {format : Expression}
    {c : Context} {e : RenderError}
    (h : renderNow clock format c = .error e) : e.ShowsCycle := by
  unfold renderNow at h
  simp only at h
  split at h
  · cases h
  · cases h
    trivial

variable {env : Environment}

theorem Stage.IsBuiltin.of_ok {tasks : List Task} {c : Context} {s : String}
    (h : ∀ task ∈ tasks, task.IsBuiltin) :
    (⟨tasks, c, .ok s⟩ : Stage).IsBuiltin :=
  ⟨h, fun _ he => by cases he⟩

theorem Stage.IsBuiltin.of_error {tasks : List Task} {c : Context}
    {e : RenderError} (h : ∀ task ∈ tasks, task.IsBuiltin)
    (he : e.ShowsCycle) : (⟨tasks, c, .error e⟩ : Stage).IsBuiltin :=
  ⟨h, fun _ heq => by cases heq; exact he⟩

theorem begin_isBuiltin {node : Node} {tasks : List Task} {c : Context}
    {s : String} (hc : c.includes.Nodup) (hnode : node.IsBuiltin)
    (htasks : ∀ task ∈ tasks, task.IsBuiltin) :
    (node.begin env tasks c s).IsBuiltin := by
  have hcons : ∀ {nodes : List Node}, AllBuiltin nodes →
      ∀ t ∈ Task.nodes nodes :: tasks, t.IsBuiltin :=
    fun h => List.forall_mem_cons.2 ⟨h, htasks⟩
  cases node with
  | text content => exact .of_ok htasks
  | placeholder expression => exact .of_ok htasks
  | loop item source body otherwise =>
      simp only [Node.begin]
      split
      · exact .of_ok (hcons hnode.2)
      · exact .of_ok (List.forall_mem_cons.2 ⟨hnode.1, htasks⟩)
  | branch condition whenTrue whenFalse =>
      simp only [Node.begin]
      split
      · exact .of_ok (hcons hnode.1)
      · exact .of_ok (hcons hnode.2)
  | now format =>
      simp only [Node.begin]
      cases hnow : renderNow env.clock format c with
      | ok t => exact .of_ok htasks
      | error e => exact .of_error htasks (renderNow_showsCycle hnow)
  | simple handler => exact absurd hnode id
  | enclosed frame body => exact absurd hnode id
  | inclusion name =>
      simp only [Node.begin, beginInclusion]
      cases hguard : inclusionLoader c (name.outputText c) with
      | error e => exact .of_error htasks (inclusionLoader_showsCycle hc hguard)
      | ok loader =>
          simp only
          cases hload : loader.load env.files (name.outputText c) with
          | error e => exact .of_error htasks trivial
          | ok template =>
              obtain ⟨path, source, -, -, hparse⟩ := Loader.load_eq_ok hload
              exact .of_ok (List.forall_mem_cons.2
                ⟨parseTokens_builtin hparse,
                  List.forall_mem_cons.2 ⟨trivial, htasks⟩⟩)

theorem Stage.IsBuiltin.step {m n : Stage} (h : m.IsBuiltin)
    (hc : m.context.includes.Nodup) (hstep : m.step env = some n) :
    n.IsBuiltin := by
  obtain ⟨tasks, c, out⟩ := m
  cases tasks with
  | nil => cases hstep
  | cons task tasks =>
      obtain ⟨htask, htasks⟩ := List.forall_mem_cons.1 h.tasks
      cases out with
      | error e =>
          cases hstep
          exact .of_error htasks (h.error e rfl)
      | ok s =>
          cases hstep
          cases task with
          | emit text => exact .of_ok htasks
          | leaveScope => exact .of_ok htasks
          | leaveInclusion name => exact .of_ok htasks
          | nodes rest =>
              cases rest with
              | nil => exact .of_ok htasks
              | cons node rest =>
                  exact begin_isBuiltin hc htask.1
                    (List.forall_mem_cons.2 ⟨htask.2, htasks⟩)
          | each body scopes =>
              cases scopes with
              | nil => exact .of_ok htasks
              | cons scope scopes =>
                  exact .of_ok (List.forall_mem_cons.2 ⟨htask,
                    List.forall_mem_cons.2 ⟨trivial,
                      List.forall_mem_cons.2 ⟨htask, htasks⟩⟩⟩)

theorem isBuiltin_of_leads {nodes : List Node} {c : Context} {m : Stage}
    (hnodes : AllBuiltin nodes) (hc : c.includes.Nodup)
    (h : (Stage.start nodes c).Leads env m) : m.IsBuiltin := by
  induction h with
  | refl => exact .of_ok (List.forall_mem_singleton.2 hnodes)
  | tail hleads hstep ih =>
      exact ih.step ((chained_of_leads hleads).includes_nodup hc) hstep

end Errors

section Termination

/-- **Rendering terminates.** A template that is parsed with the built-in tags is
rendered in finitely many steps to an output or an error. At every stage the
chain has no name twice, the name of the next inclusion is in a finite list, and no
more inclusions are in progress than there are different names in it. An error of
the chain shows a chain that has no name twice and contains the name. -/
theorem render_terminates
    (env : Environment)
    {strict : Bool} {tokens : List Token} {nodes : List Node}
    (hparse : parseTokens strict tokens = .ok nodes)
    {c : Context} (hc : c.includes.Nodup) :
    (∃ last, (Stage.start nodes c).Leads env last ∧ last.step env = none ∧
      (render env nodes c).outcome = .ofExcept last.output) ∧
    (∀ m, (Stage.start nodes c).Leads env m →
      m.context.includes.Nodup ∧
      (∀ name, m.nextName? = some name →
        name ∈ includableNames env.files nodes c) ∧
      m.openNames.length ≤
        (includableNames env.files nodes c).dedup.length) ∧
    (∀ name including,
      (render env nodes c).outcome = .error (.recursiveInclude name including) →
        including.Nodup ∧ name ∈ including) := by
  obtain ⟨last, hleads, hfinal, houtcome, -⟩ := leads_final env nodes c
  refine ⟨⟨last, hleads, hfinal, houtcome⟩, ?_, ?_⟩
  · intro m hm
    exact ⟨(chained_of_leads hm).includes_nodup hc,
      fun name hname => nextName?_mem_includableNames hm hname,
      length_openNames_le hm⟩
  · intro name including herror
    have hlast := isBuiltin_of_leads (parseTokens_builtin hparse) hc hleads
    refine hlast.error (.recursiveInclude name including) ?_
    rw [houtcome] at herror
    cases hout : last.output with
    | ok s => simp [hout, Outcome.ofExcept] at herror
    | error e =>
        simp only [hout, Outcome.ofExcept, Outcome.error.injEq] at herror
        rw [herror]

/-- Two files that include each other. -/
def mutualInclusion : Environment where
  files :=
    ⟨[("a", .text "\x7b% include 'b' %\x7d"), ("b", .text "\x7b% include 'a' %\x7d")],
      []⟩
  clock := ⟨0, 0, 0⟩

/-- A context that loads templates from the working directory. -/
def mutualInclusionContext : Context :=
  ⟨[], [], some ⟨["."], false⟩, []⟩

/-- The inclusion of one of two files that include each other ends with an error
that shows both. -/
theorem render_terminates_mutualInclusion :
    parseTokens false [.block "include 'a'"] = .ok [.inclusion ⟨"'a'"⟩] ∧
      mutualInclusionContext.includes.Nodup ∧
      (render mutualInclusion [.inclusion ⟨"'a'"⟩] mutualInclusionContext).outcome =
        .error (.recursiveInclude "a" ["a", "b"]) ∧
      (∃ last, (Stage.start [.inclusion ⟨"'a'"⟩] mutualInclusionContext).Leads
        mutualInclusion last ∧ last.step mutualInclusion = none) ∧
      ["a", "b"].Nodup ∧ "a" ∈ ["a", "b"] := by
  have hparse : parseTokens false [.block "include 'a'"] =
      .ok [.inclusion ⟨"'a'"⟩] := by cbv
  have houtcome : (render mutualInclusion [.inclusion ⟨"'a'"⟩]
      mutualInclusionContext).outcome =
        .error (.recursiveInclude "a" ["a", "b"]) := by cbv
  have hchain : mutualInclusionContext.includes.Nodup := .nil
  obtain ⟨⟨last, hleads, hfinal, -⟩, -, hcycle⟩ :=
    render_terminates mutualInclusion hparse hchain
  exact ⟨hparse, hchain, houtcome, ⟨last, hleads, hfinal⟩,
    hcycle "a" ["a", "b"] houtcome⟩

end Termination

end Templating
