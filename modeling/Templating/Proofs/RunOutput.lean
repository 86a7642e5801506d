import Templating.CommandLine.Run
import Templating.Proofs.RenderResult

/-!
# The output of a run

A request ends as the last stage of its rendering does.  Here the stages in front of the
last one are tied to it: what they put out, and the errors that they raise, are seen in the
result of the request.

**Output.**  A step puts something behind the output, or it ends the output with an error
(`Continues`).  So what a stage has put out stands at the front of what the run puts out,
and an error of a stage is the error of the run.

**Placeholders.**  A placeholder puts out the text that its expression has in the context of
the stage, and the text is found in the output of the run behind what was there
(`RenderRequest.Shows`).

Main definitions: `Continues`, `Stage.Places` and `RenderRequest.Shows`.  Main statements:
`Stage.continues_of_leads`, `RenderRequest.exists_last` and `RenderRequest.shows_of_leads`.
-/

namespace Templating

section Output

/-- What can become of an output: something is put behind it, or there is an error, which
stays. -/
inductive Continues : Except RenderError String → Except RenderError String → Prop where
  | more (s behind : String) : Continues (.ok s) (.ok (s ++ behind))
  | raised (s : String) (e : RenderError) : Continues (.ok s) (.error e)
  | kept (e : RenderError) : Continues (.error e) (.error e)

namespace Continues

variable {out out' out'' : Except RenderError String} {s t : String} {e : RenderError}

theorem refl (out : Except RenderError String) : Continues out out := by
  cases out with
  | ok s =>
      have h := more s ""
      rwa [String.append_empty] at h
  | error e => exact .kept e

theorem trans (h : Continues out out') (h' : Continues out' out'') :
    Continues out out'' := by
  cases h with
  | more s behind =>
      cases h' with
      | more _ behind' =>
          rw [String.append_assoc]
          exact .more s (behind ++ behind')
      | raised _ e => exact .raised s e
  | raised s e =>
      cases h'
      exact .raised s e
  | kept e => exact h'

theorem eq_error (h : Continues (.error e) out) : out = .error e := by
  cases h
  rfl

theorem exists_behind (h : Continues (.ok s) (.ok t)) : ∃ behind, t = s ++ behind := by
  cases h with
  | more _ behind => exact ⟨behind, rfl⟩

/-- A text is put behind the output, or there is none. -/
theorem map (s : String) (r : Except RenderError String) :
    Continues (.ok s) (r.map (s ++ ·)) := by
  cases r with
  | ok t => exact .more s t
  | error e => exact .raised s e

end Continues

variable {env : Environment}

theorem continues_beginInclusion (name : String) (tasks : List Task) (c : Context)
    (s : String) :
    Continues (.ok s) (beginInclusion env.files name tasks c s).output := by
  unfold beginInclusion
  cases inclusionLoader c name with
  | error e => exact .raised s e
  | ok loader =>
      simp only
      cases loader.load env.files name with
      | error e => exact .raised s _
      | ok template => exact .refl _

theorem continues_begin (node : Node) (tasks : List Task) (c : Context) (s : String) :
    Continues (.ok s) (node.begin env tasks c s).output := by
  cases node with
  | text content => exact .more s content
  | placeholder expression => exact .more s _
  | loop item source body otherwise =>
      simp only [Node.begin]
      split <;> exact .refl _
  | branch condition whenTrue whenFalse =>
      simp only [Node.begin]
      split <;> exact .refl _
  | inclusion name => exact continues_beginInclusion _ tasks c s
  | now format => exact .map s _
  | simple handler => exact .map s _
  | enclosed frame body =>
      simp only [Node.begin]
      split <;> exact .more s frame.opening

namespace Stage

/-- A step continues the output. -/
theorem continues_of_step {m n : Stage} (h : m.step env = some n) :
    Continues m.output n.output := by
  obtain ⟨tasks, c, out⟩ := m
  cases tasks with
  | nil => cases h
  | cons task tasks =>
      cases out with
      | error e =>
          cases h
          exact .kept e
      | ok s =>
          cases h
          cases task with
          | emit text => exact .more s text
          | leaveScope => exact .refl _
          | leaveInclusion name => exact .refl _
          | nodes rest =>
              cases rest with
              | nil => exact .refl _
              | cons node rest => exact continues_begin node _ c s
          | each body scopes => cases scopes <;> exact .refl _

/-- **Nothing that has been put out is taken back.** -/
theorem continues_of_leads {m n : Stage} (h : m.Leads env n) :
    Continues m.output n.output := by
  induction h with
  | refl => exact .refl _
  | tail _ hstep ih => exact ih.trans (continues_of_step hstep)

end Stage

end Output

section Last

namespace Template

variable {env : Environment} {t : Template} {c : Context} {m : Stage}

/-- The outcome of a rendering continues the output of each of its stages. -/
theorem continues_outcome (h : (Stage.start t.nodes c).Leads env m) :
    ∃ out, (t.render env c).outcome = .ofExcept out ∧ Continues m.output out := by
  obtain ⟨last, hleads, hlast, houtcome⟩ := exists_last env t c
  exact ⟨last.output, houtcome,
    Stage.continues_of_leads (Stage.leads_final_of_leads h hleads hlast)⟩

/-- An error at a stage is the error of the rendering. -/
theorem outcome_eq_error (h : (Stage.start t.nodes c).Leads env m) {e : RenderError}
    (herror : m.output = .error e) : (t.render env c).outcome = .error e := by
  obtain ⟨out, houtcome, hcontinues⟩ := continues_outcome h
  rw [herror] at hcontinues
  rw [houtcome, hcontinues.eq_error]
  rfl

end Template

end Last

section Placeholders

/-- The next step puts an expression behind the output `s`. -/
structure Stage.Places (m : Stage) (e : Expression) (s : String) : Prop where
  tasks : ∃ rest tasks, m.tasks = .nodes (.placeholder e :: rest) :: tasks
  output : m.output = .ok s

/-- What is put out is the text of the expression. -/
theorem Stage.Places.step {env : Environment} {m : Stage} {e : Expression} {s : String}
    (h : m.Places e s) :
    ∃ next, m.step env = some next ∧ next.output = .ok (s ++ e.outputText m.context) := by
  obtain ⟨⟨rest, tasks, htasks⟩, hout⟩ := h
  have hstep : m.step env =
      some ⟨.nodes rest :: tasks, m.context, .ok (s ++ e.outputText m.context)⟩ := by
    simp only [Stage.step, htasks, hout, Task.perform, Node.begin]
  exact ⟨_, hstep, rfl⟩

end Placeholders

namespace CommandLine

section Requests

/-- A text is what the expression puts out if the stage comes to it: the next step puts the
text behind what has been put out so far, and there it stands in the output of the
request. -/
structure RenderRequest.Shows
    (request : RenderRequest) (env : Environment) (m : Stage) (e : Expression)
    (text : String) : Prop where
  step : ∀ s, m.Places e s →
    ∃ next, m.step env = some next ∧ next.output = .ok (s ++ text)
  output : ∀ s, m.Places e s → ∀ output, request.run env = .ok output →
    ∃ behind, output = s ++ text ++ behind

namespace RenderRequest

variable {request : RenderRequest} {env : Environment} {t : Template} {c : Context}
  {m : Stage}

/-- A request ends as its rendering does. -/
theorem run_of_outcome {r : Rendered} {out : Except RenderError String}
    (hrendered : request.rendered env = .ok r) (houtcome : r.outcome = .ofExcept out) :
    request.run env = out.mapError (.render request.template) := by
  unfold run
  rw [hrendered]
  cases out <;> simp [bind, Except.bind, houtcome, Outcome.ofExcept, Except.mapError]

/-- **The last stage has the output of the request**, or the error with which it fails. -/
theorem exists_last (hrendered : request.rendered env = .ok (t.render env c)) :
    ∃ last, (Stage.start t.nodes c).Leads env last ∧ last.step env = none ∧
      request.run env = last.output.mapError (.render request.template) := by
  obtain ⟨last, hleads, hlast, houtcome⟩ := t.exists_last env c
  exact ⟨last, hleads, hlast, run_of_outcome hrendered houtcome⟩

/-- What a stage has put out stands at the front of the output. -/
theorem exists_behind (hrendered : request.rendered env = .ok (t.render env c))
    (hm : (Stage.start t.nodes c).Leads env m) {s output : String}
    (hout : m.output = .ok s) (hrun : request.run env = .ok output) :
    ∃ behind, output = s ++ behind := by
  obtain ⟨out, houtcome, hcontinues⟩ := Template.continues_outcome hm
  rw [run_of_outcome hrendered houtcome] at hrun
  cases out with
  | error e => cases hrun
  | ok text =>
      cases hrun
      rw [hout] at hcontinues
      exact hcontinues.exists_behind

/-- **A placeholder shows the text of its expression**, at each stage of the run. -/
theorem shows_of_leads (hrendered : request.rendered env = .ok (t.render env c))
    (hm : (Stage.start t.nodes c).Leads env m) (e : Expression) :
    request.Shows env m e (e.outputText m.context) where
  step _ hplaces := hplaces.step
  output s hplaces output hrun := by
    obtain ⟨next, hstep, hnext⟩ := hplaces.step
    exact exists_behind hrendered (hm.tail hstep) hnext hrun

end RenderRequest

end Requests

end CommandLine

end Templating
