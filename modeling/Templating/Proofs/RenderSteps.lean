import Mathlib.Logic.Relation
import Templating.Render

/-!
# Rendering step by step

The renderer calls itself for bodies, branches and included templates, and has a
bound on the nesting of inclusions.  Here the same is done in single steps, with
a list of what is still to be done in place of the calls, and without a bound.

**Stage.**  The tasks that are left, the context, and the output so far or the
error that has been raised.

**Step.**  The first task is done.  After an error tasks are given up one by one:
scopes and names that have been pushed are still taken away.

**Agreement.**  If rendering gives an output or an error, the steps come to it,
with the same context.  If it has reached its bound, the steps come to a stage in
which as many inclusions are open as the bound allows.

**Change.**  A step leaves the context as it is, opens or closes a scope, or enters or
leaves an inclusion.  What has been opened or entered is left by a task that is still to
be done.

Main definitions: `Task`, `Stage`, `Stage.step`, `Stage.Leads`, `Stage.openNames`
and `Stage.Change`.  Main statements: `Stage.change_of_step` and
`renderWithin_ends`.
-/

namespace Templating

section Stages

/-- Something that is still to be done in a rendering. -/
inductive Task where
  | nodes (rest : List Node)
  /-- A body to be rendered once in each of the scopes. -/
  | each (body : List Node) (scopes : List Scope)
  | emit (text : String)
  | leaveScope
  /-- The end of an inclusion. -/
  | leaveInclusion (name : String)

namespace Task

/-- The name of the inclusion that ends here. -/
def openName? : Task → Option String
  | .leaveInclusion name => some name
  | _ => none

/-- The context after a task has been given up. -/
def abandon : Task → Context → Context
  | .leaveScope, c => c.pop.2
  | .leaveInclusion _, c => c.popInclude.2
  | _, c => c

end Task

/-- The names of the inclusions that end in the tasks, the innermost first. -/
def openNames (tasks : List Task) : List String :=
  tasks.filterMap Task.openName?

/-- A rendering between two steps. -/
structure Stage where
  tasks : List Task
  context : Context
  output : Except RenderError String

/-- The names of the inclusions in progress, the innermost first. -/
def Stage.openNames (m : Stage) : List String :=
  Templating.openNames m.tasks

/-- Before the first step. -/
def Stage.start (nodes : List Node) (c : Context) : Stage :=
  ⟨[.nodes nodes], c, .ok ""⟩

end Stages

section Step

/-- Begins an inclusion in front of other tasks, after the output `s`. -/
def beginInclusion
    (files : FileTree) (name : String) (tasks : List Task) (c : Context)
    (s : String) : Stage :=
  match inclusionLoader c name with
  | .error e => ⟨tasks, c, .error e⟩
  | .ok loader =>
      match loader.load files name with
      | .error e => ⟨tasks, c, .error (.inclusion name e)⟩
      | .ok template =>
          ⟨.nodes template.nodes :: .leaveInclusion name :: tasks,
            c.pushInclude name, .ok s⟩

/-- Begins a node in front of other tasks, after the output `s`. -/
def Node.begin
    (env : Environment) (tasks : List Task) (c : Context) (s : String) :
    Node → Stage
  | .text content => ⟨tasks, c, .ok (s ++ content)⟩
  | .placeholder expression => ⟨tasks, c, .ok (s ++ expression.outputText c)⟩
  | .loop item source body otherwise =>
      match loopItems source c with
      | [] => ⟨.nodes otherwise :: tasks, c, .ok s⟩
      | v :: rest =>
          ⟨.each body (Node.loopFrames item (v :: rest)) :: tasks, c, .ok s⟩
  | .branch condition whenTrue whenFalse =>
      if ((condition.resolve? c).map Value.isTruthy).getD false then
        ⟨.nodes whenTrue :: tasks, c, .ok s⟩
      else
        ⟨.nodes whenFalse :: tasks, c, .ok s⟩
  | .inclusion name => beginInclusion env.files (name.outputText c) tasks c s
  | .now format => ⟨tasks, c, (renderNow env.clock format c).map (s ++ ·)⟩
  | .simple handler => ⟨tasks, c, (handler c).map (s ++ ·)⟩
  | .enclosed frame body =>
      match frame.bindings with
      | none =>
          ⟨.nodes body :: .emit frame.closing :: tasks, c,
            .ok (s ++ frame.opening)⟩
      | some bindings =>
          ⟨.nodes body :: .leaveScope :: .emit frame.closing :: tasks,
            c.push bindings, .ok (s ++ frame.opening)⟩

/-- Does a task in front of other tasks, after the output `s`. -/
def Task.perform
    (env : Environment) (tasks : List Task) (c : Context) (s : String) :
    Task → Stage
  | .nodes [] => ⟨tasks, c, .ok s⟩
  | .nodes (node :: rest) => node.begin env (.nodes rest :: tasks) c s
  | .each _ [] => ⟨tasks, c, .ok s⟩
  | .each body (scope :: rest) =>
      ⟨.nodes body :: .leaveScope :: .each body rest :: tasks, c.push scope,
        .ok s⟩
  | .emit text => ⟨tasks, c, .ok (s ++ text)⟩
  | .leaveScope => ⟨tasks, c.pop.2, .ok s⟩
  | .leaveInclusion _ => ⟨tasks, c.popInclude.2, .ok s⟩

namespace Stage

/-- The next step, if there is anything left to be done. -/
def step (env : Environment) (m : Stage) : Option Stage :=
  match m.tasks with
  | [] => none
  | task :: tasks =>
      match m.output with
      | .ok s => some (task.perform env tasks m.context s)
      | .error e => some ⟨tasks, task.abandon m.context, .error e⟩

/-- The name that the inclusion resolves to which the next step begins. -/
def nextName? (m : Stage) : Option String :=
  match m.tasks, m.output with
  | .nodes (.inclusion name :: _) :: _, .ok _ => some (name.outputText m.context)
  | _, _ => none

/-- Some steps lead from one stage to another. -/
abbrev Leads (env : Environment) : Stage → Stage → Prop :=
  Relation.ReflTransGen fun m n => m.step env = some n

variable {env : Environment}

theorem leads_perform (task : Task) (tasks : List Task) (c : Context)
    (s : String) :
    Leads env ⟨task :: tasks, c, .ok s⟩ (task.perform env tasks c s) :=
  .single rfl

theorem leads_abandon (task : Task) (tasks : List Task) (c : Context)
    (e : RenderError) :
    Leads env ⟨task :: tasks, c, .error e⟩ ⟨tasks, task.abandon c, .error e⟩ :=
  .single rfl

/-- The step of an inclusion that loads its template. -/
theorem step_inclusion {m : Stage} {e : Expression} {name s : String} {rest : List Node}
    {tasks : List Task} {loader : Loader} {template : Template}
    (htasks : m.tasks = .nodes (.inclusion e :: rest) :: tasks) (hout : m.output = .ok s)
    (hname : e.outputText m.context = name)
    (hguard : inclusionLoader m.context name = .ok loader)
    (hload : loader.load env.files name = .ok template) :
    m.step env =
      some ⟨.nodes template.nodes :: .leaveInclusion name :: .nodes rest :: tasks,
        m.context.pushInclude name, .ok s⟩ := by
  simp only [step, htasks, hout, Task.perform, Node.begin, hname, beginInclusion, hguard,
    hload]

/-- The stage after some steps, or the last one if there are fewer. -/
def run (env : Environment) : Nat → Stage → Stage
  | 0, m => m
  | count + 1, m =>
      match m.step env with
      | none => m
      | some n => run env count n

theorem leads_run (env : Environment) (count : Nat) (m : Stage) :
    m.Leads env (run env count m) := by
  induction count generalizing m with
  | zero => exact .refl
  | succ count ih =>
      unfold run
      split
      · exact .refl
      · next n hstep => exact .head hstep (ih n)

end Stage

end Step

section Changes

/-- Whether the task takes a scope away. -/
def Task.leavesScope : Task → Bool
  | .leaveScope => true
  | _ => false

/-- The number of scopes that are still to be taken away: those of the loops and of the
other bodies that the rendering is inside of. -/
def openScopes (tasks : List Task) : Nat :=
  (tasks.filter Task.leavesScope).length

/-- The number of scopes that are open at a stage. -/
def Stage.openScopes (m : Stage) : Nat :=
  Templating.openScopes m.tasks

/-- What a step does to the context, and to the scopes and the inclusions that are still to
be left. -/
inductive Stage.Change (env : Environment) (m n : Stage) : Prop where
  | keep
      (context : n.context = m.context)
      (names : n.openNames = m.openNames)
      (scopes : n.openScopes = m.openScopes)
  | pushScope {scope : Scope}
      (context : n.context = m.context.push scope)
      (names : n.openNames = m.openNames)
      (scopes : n.openScopes = m.openScopes + 1)
  | popScope
      (context : n.context = m.context.pop.2)
      (names : n.openNames = m.openNames)
      (scopes : m.openScopes = n.openScopes + 1)
  | enterInclusion {name : String} {loader : Loader} {template : Template}
      (guard : inclusionLoader m.context name = .ok loader)
      (loaded : loader.load env.files name = .ok template)
      (context : n.context = m.context.pushInclude name)
      (names : n.openNames = name :: m.openNames)
      (scopes : n.openScopes = m.openScopes)
  | leaveInclusion {name : String}
      (context : n.context = m.context.popInclude.2)
      (names : m.openNames = name :: n.openNames)
      (scopes : n.openScopes = m.openScopes)

variable {env : Environment}

/-- An inclusion is entered unless it ends in an error at once. -/
theorem change_beginInclusion (name : String) (m : Stage) {tasks : List Task} (s : String)
    (hnames : openNames tasks = m.openNames) (hscopes : openScopes tasks = m.openScopes) :
    m.Change env (beginInclusion env.files name tasks m.context s) := by
  unfold beginInclusion
  cases hguard : inclusionLoader m.context name with
  | error e => exact .keep rfl hnames hscopes
  | ok loader =>
      simp only
      cases hload : loader.load env.files name with
      | error e => exact .keep rfl hnames hscopes
      | ok template =>
          exact .enterInclusion hguard hload rfl (congrArg (name :: ·) hnames) hscopes

/-- Only an inclusion and a body with bindings of its own begin with a change. -/
theorem change_begin (node : Node) {rest : List Node} {tasks : List Task} {c : Context}
    {s : String} :
    Stage.Change env ⟨.nodes (node :: rest) :: tasks, c, .ok s⟩
      (node.begin env (.nodes rest :: tasks) c s) := by
  cases node with
  | text content => exact .keep rfl rfl rfl
  | placeholder expression => exact .keep rfl rfl rfl
  | loop item source body otherwise =>
      simp only [Node.begin]
      split <;> exact .keep rfl rfl rfl
  | branch condition whenTrue whenFalse =>
      simp only [Node.begin]
      split <;> exact .keep rfl rfl rfl
  | inclusion name => exact change_beginInclusion _ _ s rfl rfl
  | now format => exact .keep rfl rfl rfl
  | simple handler => exact .keep rfl rfl rfl
  | enclosed frame body =>
      simp only [Node.begin]
      split
      · exact .keep rfl rfl rfl
      · exact .pushScope rfl rfl rfl

/-- **What a step can do.** The tasks that leave a scope or an inclusion do so after an error
too. -/
theorem Stage.change_of_step {m n : Stage} (h : m.step env = some n) : m.Change env n := by
  obtain ⟨tasks, c, out⟩ := m
  cases tasks with
  | nil => cases h
  | cons task tasks =>
      cases out with
      | error e =>
          cases h
          cases task with
          | leaveScope => exact .popScope rfl rfl rfl
          | leaveInclusion name => exact .leaveInclusion rfl rfl rfl
          | nodes rest => exact .keep rfl rfl rfl
          | each body scopes => exact .keep rfl rfl rfl
          | emit text => exact .keep rfl rfl rfl
      | ok s =>
          cases h
          cases task with
          | leaveScope => exact .popScope rfl rfl rfl
          | leaveInclusion name => exact .leaveInclusion rfl rfl rfl
          | emit text => exact .keep rfl rfl rfl
          | nodes rest =>
              cases rest with
              | nil => exact .keep rfl rfl rfl
              | cons node rest => exact change_begin node
          | each body scopes =>
              cases scopes with
              | nil => exact .keep rfl rfl rfl
              | cons scope scopes => exact .pushScope rfl rfl rfl

end Changes

section Ends

/-- The steps from `m` come to what a rendering gives, in front of the tasks that
are left and after the output `s`. If the rendering has reached its bound, so many
more inclusions are open at some stage. -/
def Ends
    (env : Environment) (depth : Nat) (m : Stage) (tasks : List Task)
    (s : String) (r : Rendered) : Prop :=
  match r.outcome with
  | .ok t => m.Leads env ⟨tasks, r.context, .ok (s ++ t)⟩
  | .error e => m.Leads env ⟨tasks, r.context, .error e⟩
  | .exhausted =>
      ∃ n, m.Leads env n ∧
        (openNames tasks).length + depth ≤ n.openNames.length

namespace Ends

variable {env : Environment} {depth : Nat} {m n : Stage} {tasks : List Task}
  {s : String} {r : Rendered}

theorem after (hmn : m.Leads env n) (h : Ends env depth n tasks s r) :
    Ends env depth m tasks s r := by
  unfold Ends at h ⊢
  cases hr : r.outcome with
  | ok t => rw [hr] at h; exact hmn.trans h
  | error e => rw [hr] at h; exact hmn.trans h
  | exhausted =>
      rw [hr] at h
      obtain ⟨last, hlast, hle⟩ := h
      exact ⟨last, hmn.trans hlast, hle⟩

theorem ok (c : Context) (t : String) :
    Ends env depth ⟨tasks, c, .ok (s ++ t)⟩ tasks s (.ok t c) :=
  .refl

theorem empty (c : Context) :
    Ends env depth ⟨tasks, c, .ok s⟩ tasks s (.ok "" c) := by
  have h : Ends env depth ⟨tasks, c, .ok (s ++ "")⟩ tasks s (.ok "" c) :=
    ok c ""
  rwa [String.append_empty] at h

theorem error (c : Context) (e : RenderError) :
    Ends env depth ⟨tasks, c, .error e⟩ tasks s (.error e c) :=
  .refl

theorem ofExcept (c : Context) (result : Except RenderError String) :
    Ends env depth ⟨tasks, c, result.map (s ++ ·)⟩ tasks s
      (.ofExcept result c) := by
  cases result with
  | ok t => exact ok c t
  | error e => exact error c e

/-- The names of the inclusions that have been begun do not matter. -/
theorem afterInclusion {name : String} (h : Ends env depth m tasks s r) :
    Ends env depth m tasks s (r.afterInclusion name) := h

/-- One rendering after another, where the second is the first of the tasks that
the first one leaves. -/
theorem followedBy (task : Task) {next : Context → Rendered}
    (habandon : ∀ c, task.abandon c = c) (hname : task.openName? = none)
    (hr : Ends env depth m (task :: tasks) s r)
    (hnext : ∀ t, Ends env depth ⟨task :: tasks, r.context, .ok (s ++ t)⟩ tasks
      (s ++ t) (next r.context)) :
    Ends env depth m tasks s (r.followedBy next) := by
  unfold Ends at hr
  unfold Rendered.followedBy
  cases hout : r.outcome with
  | ok t =>
      rw [hout] at hr
      have h := after hr (hnext t)
      unfold Ends at h ⊢
      cases hrest : (next r.context).outcome with
      | ok u =>
          rw [hrest] at h
          simpa only [hrest, Outcome.map, String.append_assoc] using h
      | error e => simpa only [hrest, Outcome.map] using h
      | exhausted => simpa only [hrest, Outcome.map] using h
  | error e =>
      rw [hout] at hr
      have h := hr.trans (Stage.leads_abandon task tasks r.context e)
      rw [habandon] at h
      simpa only [Ends, hout] using h
  | exhausted =>
      rw [hout] at hr
      simpa only [Ends, hout, openNames, List.filterMap_cons, hname] using hr

/-- A task that is left until the end, and what it makes of the rendering. -/
theorem lastTask (task : Task) {f : String → String} {s' : String}
    {depth' : Nat} {r' : Rendered} (h : Ends env depth m (task :: tasks) s r)
    (hout : r'.outcome = r.outcome.map f)
    (hcontext : r'.context = task.abandon r.context)
    (hperform : ∀ t, task.perform env tasks r.context (s ++ t) =
      ⟨tasks, task.abandon r.context, .ok (s' ++ f t)⟩)
    (hdepth : (openNames tasks).length + depth' =
      (openNames (task :: tasks)).length + depth) :
    Ends env depth' m tasks s' r' := by
  unfold Ends at h ⊢
  rw [hout, hcontext]
  cases hr : r.outcome with
  | ok t =>
      rw [hr] at h
      have hlast := h.trans (Stage.leads_perform _ _ _ _)
      rw [hperform] at hlast
      exact hlast
  | error e =>
      rw [hr] at h
      exact h.trans (Stage.leads_abandon _ _ _ _)
  | exhausted =>
      rw [hr] at h
      -- the bound was reached before the task came up
      obtain ⟨last, hlast, hle⟩ := h
      exact ⟨last, hlast, Nat.le_trans (Nat.le_of_eq hdepth) hle⟩

theorem leaveScope (h : Ends env depth m (.leaveScope :: tasks) s r) :
    Ends env depth m tasks s r.leaveScope :=
  h.lastTask .leaveScope (Outcome.map_id _).symm rfl (fun _ => rfl) rfl

/-- The name of an inclusion is taken away at its end. Up to there one inclusion
more is open. -/
theorem leaveInclude {name : String}
    (h : Ends env depth m (.leaveInclusion name :: tasks) s r) :
    Ends env (depth + 1) m tasks s r.leaveInclude :=
  h.lastTask (.leaveInclusion name) (Outcome.map_id _).symm rfl (fun _ => rfl)
    (Nat.succ_add _ _).symm

theorem mapOutput {opening closing : String}
    (h : Ends env depth m (.emit closing :: tasks) (s ++ opening) r) :
    Ends env depth m tasks s
      (r.mapOutput fun t => opening ++ t ++ closing) := by
  refine h.lastTask (.emit closing) rfl rfl (fun t => ?_) rfl
  simp only [Task.perform, Task.abandon, String.append_assoc]

end Ends

end Ends

section Agreement

variable {env : Environment} {depth : Nat} {tasks : List Task} {s : String}

/-- A body is rendered in each scope if the steps render it. -/
theorem renderEach_ends {body : List Node} {render : Context → Rendered}
    (hbody : ∀ tasks c s, Ends env depth ⟨.nodes body :: tasks, c, .ok s⟩ tasks s
      (render c)) :
    ∀ (scopes : List Scope) (c : Context) (s : String),
      Ends env depth ⟨.each body scopes :: tasks, c, .ok s⟩ tasks s
        (renderEach render scopes c)
  | [], c, s => .after (Stage.leads_perform _ _ _ _) (.empty c)
  | scope :: rest, c, s => by
      refine .after (Stage.leads_perform _ _ _ _) ?_
      exact .followedBy (.each body rest) (fun _ => rfl) rfl
        (hbody _ _ _).leaveScope
        (fun t => renderEach_ends hbody rest _ (s ++ t))

variable {included : List Node → Context → Rendered}

/-- An inclusion is as deep as its template and one more. -/
theorem renderInclusion_ends
    (hincluded : ∀ nodes tasks c s,
      Ends env depth ⟨.nodes nodes :: tasks, c, .ok s⟩ tasks s
        (included nodes c))
    (name : String) (c : Context) :
    Ends env (depth + 1) (beginInclusion env.files name tasks c s) tasks s
      (renderInclusion env.files included name c) := by
  unfold beginInclusion renderInclusion
  cases inclusionLoader c name with
  | error e => exact .error c e
  | ok loader =>
      refine .afterInclusion ?_
      simp only
      cases loader.load env.files name with
      | error e => exact .error c _
      | ok template => exact (hincluded template.nodes _ _ s).leaveInclude

mutual

theorem Node.render_ends
    (hincluded : ∀ nodes tasks c s,
      Ends env depth ⟨.nodes nodes :: tasks, c, .ok s⟩ tasks s
        (included nodes c)) :
    ∀ (node : Node) (tasks : List Task) (c : Context) (s : String),
      Ends env (depth + 1) (node.begin env tasks c s) tasks s
        (node.render env included c)
  | .text _, _, c, _ => .ok c _
  | .placeholder _, _, c, _ => .ok c _
  | .loop item source body otherwise, tasks, c, s => by
      simp only [Node.begin, Node.render]
      cases loopItems source c with
      | nil => exact renderNodes_ends hincluded otherwise tasks c s
      | cons v rest =>
          exact renderEach_ends (renderNodes_ends hincluded body) _ c s
  | .branch condition whenTrue whenFalse, tasks, c, s => by
      simp only [Node.begin, Node.render]
      split
      · exact renderNodes_ends hincluded whenTrue tasks c s
      · exact renderNodes_ends hincluded whenFalse tasks c s
  | .inclusion name, tasks, c, s => by
      simp only [Node.begin, Node.render]
      exact renderInclusion_ends hincluded _ c
  | .now format, tasks, c, s => by
      simp only [Node.begin, Node.render]
      exact .ofExcept c _
  | .simple handler, tasks, c, s => by
      simp only [Node.begin, Node.render]
      exact .ofExcept c _
  | .enclosed frame body, tasks, c, s => by
      simp only [Node.begin, Node.render]
      cases frame.bindings with
      | none => exact (renderNodes_ends hincluded body _ c _).mapOutput
      | some bindings =>
          exact (renderNodes_ends hincluded body _ _ _).leaveScope.mapOutput

theorem renderNodes_ends
    (hincluded : ∀ nodes tasks c s,
      Ends env depth ⟨.nodes nodes :: tasks, c, .ok s⟩ tasks s
        (included nodes c)) :
    ∀ (nodes : List Node) (tasks : List Task) (c : Context) (s : String),
      Ends env (depth + 1) ⟨.nodes nodes :: tasks, c, .ok s⟩ tasks s
        (renderNodes env included nodes c)
  | [], _, c, _ => .after (Stage.leads_perform _ _ _ _) (.empty c)
  | node :: rest, tasks, c, s => by
      refine .after (Stage.leads_perform _ _ _ _) ?_
      simp only [renderNodes]
      exact .followedBy (.nodes rest) (fun _ => rfl) rfl
        (Node.render_ends hincluded node _ c s)
        (fun t => renderNodes_ends hincluded rest tasks _ (s ++ t))

end

/-- **Rendering and the steps agree**, for every bound on the nesting of
inclusions. -/
theorem renderWithin_ends (env : Environment) :
    ∀ (depth : Nat) (nodes : List Node) (tasks : List Task) (c : Context)
      (s : String),
      Ends env depth ⟨.nodes nodes :: tasks, c, .ok s⟩ tasks s
        (renderWithin env depth nodes c)
  | 0, _, _, _, _ => ⟨_, .refl, Nat.le_refl _⟩
  | depth + 1, nodes, tasks, c, s =>
      renderNodes_ends (renderWithin_ends env depth) nodes tasks c s

end Agreement

end Templating
