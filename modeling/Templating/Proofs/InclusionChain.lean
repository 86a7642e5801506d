import Mathlib.Data.List.Nodup
import Templating.Proofs.LoadedFiles
import Templating.Proofs.RenderSteps

/-!
# The chain of inclusions

Every inclusion in progress has its name in the chain of the context, behind the
names that were there when rendering began.  A step leaves the chain as it is,
begins an inclusion whose name is not in it, or ends the innermost one.

Main definition: `Chained`, which holds at every stage of a rendering
(`chained_of_leads`).
-/

namespace Templating

section Context

/-- An inclusion goes on if there is a loader and its name is not in the chain. -/
theorem inclusionLoader_eq_ok_iff {c : Context} {name : String}
    {loader : Loader} :
    inclusionLoader c name = .ok loader ↔
      c.loader = some loader ∧ name ∉ c.includes := by
  unfold inclusionLoader
  cases hloader : c.loader with
  | none => simp
  | some found =>
      by_cases hname : name ∈ c.includes
      · simp [hname]
      · simp [hname]

end Context

section Step

/-- What a step does to the inclusions in progress and to the chain. -/
inductive ChainStep (env : Environment) (m n : Stage) : Prop where
  | same
      (names : n.openNames = m.openNames)
      (chain : n.context.includes = m.context.includes)
      (loader : n.context.loader = m.context.loader)
  | enter {name path : String} {loader : Loader}
      (fresh : name ∉ m.context.includes)
      (attached : m.context.loader = some loader)
      (found : loader.find? env.files name = some path)
      (names : n.openNames = name :: m.openNames)
      (chain : n.context.includes = m.context.includes ++ [name])
      (loader : n.context.loader = m.context.loader)
  | leave {name : String}
      (names : m.openNames = name :: n.openNames)
      (chain : n.context.includes = m.context.includes.dropLast)
      (loader : n.context.loader = m.context.loader)

variable {env : Environment}

/-- What a step can do. -/
theorem chainStep_of_step {m n : Stage} (h : m.step env = some n) :
    ChainStep env m n := by
  cases Stage.change_of_step h with
  | keep context names scopes =>
      exact .same names (by rw [context]) (by rw [context])
  | pushScope context names scopes =>
      exact .same names (by rw [context]; rfl) (by rw [context]; rfl)
  | popScope context names scopes =>
      exact .same names (by rw [context, Context.pop_includes])
        (by rw [context, Context.pop_loader])
  | enterInclusion guard loaded context names scopes =>
      obtain ⟨hloader, hfresh⟩ := inclusionLoader_eq_ok_iff.1 guard
      obtain ⟨path, _, hfind, -⟩ := Loader.load_eq_ok loaded
      exact .enter hfresh hloader hfind names (by rw [context]; rfl)
        (by rw [context]; rfl)
  | leaveInclusion context names scopes =>
      exact .leave names (by rw [context]; rfl) (by rw [context]; rfl)

end Step

section Chained

/-- How a stage stands to the context in which rendering began: the same loader
is attached, and the names of the inclusions in progress are different, new, found
by the loader, and in the chain in their order. -/
structure Chained (env : Environment) (c : Context) (m : Stage) : Prop where
  loader : m.context.loader = c.loader
  chain : m.context.includes = c.includes ++ m.openNames.reverse
  nodup : m.openNames.Nodup
  fresh : ∀ name ∈ m.openNames, name ∉ c.includes
  found : ∀ name ∈ m.openNames, ∃ loader path,
    c.loader = some loader ∧ loader.find? env.files name = some path

variable {env : Environment} {c : Context} {m n : Stage}

theorem chained_start (env : Environment) (nodes : List Node) (c : Context) :
    Chained env c (.start nodes c) where
  loader := rfl
  chain := (List.append_nil _).symm
  nodup := .nil
  fresh := by rintro name ⟨⟩
  found := by rintro name ⟨⟩

theorem Chained.step (h : Chained env c m) (hstep : m.step env = some n) :
    Chained env c n := by
  cases chainStep_of_step hstep with
  | same names chain loader =>
      refine ⟨loader.trans h.loader, ?_, ?_, ?_, ?_⟩
      · rw [chain, h.chain, names]
      · rw [names]
        exact h.nodup
      · rw [names]
        exact h.fresh
      · rw [names]
        exact h.found
  | @enter name path found fresh attached hfound names chain loader =>
      -- the name is neither in progress nor one from before the rendering
      rw [h.chain, List.mem_append, List.mem_reverse, not_or] at fresh
      refine ⟨loader.trans h.loader, ?_, ?_, ?_, ?_⟩
      · rw [chain, h.chain, names, List.reverse_cons, List.append_assoc]
      · rw [names]
        exact List.nodup_cons.2 ⟨fresh.2, h.nodup⟩
      · rw [names]
        exact List.forall_mem_cons.2 ⟨fresh.1, h.fresh⟩
      · rw [names]
        exact List.forall_mem_cons.2
          ⟨⟨found, path, h.loader.symm.trans attached, hfound⟩, h.found⟩
  | @leave name names chain loader =>
      have hmem : ∀ other ∈ n.openNames, other ∈ m.openNames := by
        rw [names]
        exact fun _ => List.mem_cons_of_mem _
      have hnodup := h.nodup
      rw [names] at hnodup
      refine ⟨loader.trans h.loader, ?_, (List.nodup_cons.1 hnodup).2,
        fun other hother => h.fresh other (hmem other hother),
        fun other hother => h.found other (hmem other hother)⟩
      rw [chain, h.chain, names, List.reverse_cons, ← List.append_assoc,
        List.dropLast_concat]

/-- Every stage of a rendering is chained to its context. -/
theorem chained_of_leads {nodes : List Node}
    (h : (Stage.start nodes c).Leads env m) : Chained env c m := by
  induction h with
  | refl => exact chained_start env nodes c
  | tail _ hstep ih => exact ih.step hstep

/-- No name comes twice in the chain if none did when rendering began. -/
theorem Chained.includes_nodup (h : Chained env c m) (hc : c.includes.Nodup) :
    m.context.includes.Nodup := by
  rw [h.chain]
  refine List.Nodup.append hc (List.nodup_reverse.2 h.nodup) ?_
  intro name hname hopen
  exact h.fresh name (List.mem_reverse.1 hopen) hname

end Chained

end Templating
