import Templating.Proofs.PlainSegments
import Templating.Proofs.RenderResult

/-!
# The files that are open while templates are included

The chain holds names, and a name is not a file: `./a` and `a` are the same file
in one directory, and so are `a` in `t/x` and `x/a` in `t`.

**Same file.**  Two paths are the same file if their segments agree without the
empty ones and the dots (`Path.SameFile`).

**Open files.**  The files that the inclusions in progress have loaded
(`Stage.openFiles`).  The files and the loader do not change, so that a name in
the chain still stands for the file that has been loaded.

**Result.**  An inclusion loads a file that is open just when a name in progress
is another spelling of its own (`opensNoFileTwice_iff`).  Such spellings get
through.
-/

namespace Templating

section OpenFiles

/-- The files that the inclusions in progress have loaded, the innermost first. -/
def Stage.openFiles (env : Environment) (m : Stage) : List String :=
  m.openNames.filterMap fun name =>
    m.context.loader.bind fun loader => loader.find? env.files name

/-- The next step loads the file at a path for an inclusion of a name. -/
structure Stage.Loads
    (env : Environment) (m : Stage) (name path : String) : Prop where
  next : m.nextName? = some name
  loaded : ∃ loader template,
    inclusionLoader m.context name = .ok loader ∧
    loader.load env.files name = .ok template ∧
    loader.find? env.files name = some path

/-- No inclusion ever loads a file that an inclusion in progress has loaded. -/
def OpensNoFileTwice
    (env : Environment) (nodes : List Node) (c : Context) : Prop :=
  ∀ m name path, (Stage.start nodes c).Leads env m → m.Loads env name path →
    ∀ other ∈ m.openFiles env, ¬ Path.SameFile other path

/-- Two different names that lead to one file, from one directory or from two. -/
def Loader.Respells
    (loader : Loader) (files : FileTree) (other name : String) : Prop :=
  other ≠ name ∧
    ∃ dir ∈ loader.dirs, ∃ dir' ∈ loader.dirs,
      loader.find? files other = some (Path.join dir other) ∧
      loader.find? files name = some (Path.join dir' name) ∧
      Path.plainSegments dir ++ Path.plainSegments other =
        Path.plainSegments dir' ++ Path.plainSegments name

namespace Loader

variable {loader : Loader} {files : FileTree} {name other path path' : String}

theorem not_isAbsolute_of_find? (h : loader.find? files name = some path) :
    Path.isAbsolute name = false := by
  unfold find? at h
  split_ifs at h with hcontained
  exact ((Path.isContained_iff name).1 hcontained).2.1

theorem find?_eq_some_join (h : loader.find? files name = some path) :
    ∃ dir ∈ loader.dirs, path = Path.join dir name := by
  unfold find? at h
  split_ifs at h
  obtain ⟨dir, hdir, hpath⟩ := List.mem_map.1 (List.mem_of_find?_eq_some h)
  exact ⟨dir, hdir, hpath.symm⟩

/-- Two different names that have been found are one file if one spells the
other. -/
theorem sameFile_iff_respells (hother : loader.find? files other = some path')
    (hname : loader.find? files name = some path) (hne : other ≠ name) :
    Path.SameFile path' path ↔ loader.Respells files other name := by
  have hjoin' := fun dir =>
    Path.plainSegments_join dir (not_isAbsolute_of_find? hother)
  have hjoin := fun dir =>
    Path.plainSegments_join dir (not_isAbsolute_of_find? hname)
  constructor
  · intro hsame
    obtain ⟨dir', hdir', rfl⟩ := find?_eq_some_join hother
    obtain ⟨dir, hdir, rfl⟩ := find?_eq_some_join hname
    refine ⟨hne, dir', hdir', dir, hdir, hother, hname, ?_⟩
    rw [← hjoin', ← hjoin]
    exact hsame
  · rintro ⟨-, dir', -, dir, -, hother', hname', hsegments⟩
    cases hother.symm.trans hother'
    cases hname.symm.trans hname'
    unfold Path.SameFile
    rw [hjoin', hjoin]
    exact hsegments

end Loader

namespace Stage

variable {env : Environment} {nodes : List Node} {c : Context} {m : Stage}
  {name path : String}

theorem mem_openFiles {loader : Loader} (hloader : m.context.loader = some loader)
    {file : String} :
    file ∈ m.openFiles env ↔
      ∃ other ∈ m.openNames, loader.find? env.files other = some file := by
  simp [openFiles, hloader]

/-- Every inclusion in progress has its file among the open ones. -/
theorem exists_mem_openFiles (h : (Stage.start nodes c).Leads env m)
    {loader : Loader} (hloader : m.context.loader = some loader)
    {other : String} (hother : other ∈ m.openNames) :
    ∃ file ∈ m.openFiles env, loader.find? env.files other = some file := by
  have hchained := chained_of_leads h
  obtain ⟨loader', file, hloader', hfound⟩ := hchained.found other hother
  rw [← hchained.loader, hloader] at hloader'
  cases hloader'
  exact ⟨file, (mem_openFiles hloader).2 ⟨other, hother, hfound⟩, hfound⟩

/-- An inclusion that loads a file has a name that is not in progress. -/
theorem Loads.fresh (h : (Stage.start nodes c).Leads env m)
    (hload : m.Loads env name path) :
    ∃ loader, m.context.loader = some loader ∧
      loader.find? env.files name = some path ∧ name ∉ m.openNames := by
  obtain ⟨loader, template, hguard, -, hfind⟩ := hload.loaded
  obtain ⟨hloader, hfresh⟩ := inclusionLoader_eq_ok_iff.1 hguard
  refine ⟨loader, hloader, hfind, fun hopen => hfresh ?_⟩
  rw [(chained_of_leads h).chain]
  exact List.mem_append_right _ (List.mem_reverse.2 hopen)

/-- An open file is loaded once more just when a name in progress spells it
differently. -/
theorem Loads.reopens_iff (h : (Stage.start nodes c).Leads env m)
    (hload : m.Loads env name path) :
    (∃ file ∈ m.openFiles env, Path.SameFile file path) ↔
      ∃ loader, m.context.loader = some loader ∧
        ∃ other ∈ m.openNames, loader.Respells env.files other name := by
  obtain ⟨loader, hloader, hfind, hfresh⟩ := hload.fresh h
  -- the test of the chain excludes the same name, and nothing else
  have hne : ∀ other ∈ m.openNames, other ≠ name := by
    rintro other hother rfl
    exact hfresh hother
  constructor
  · rintro ⟨file, hfile, hsame⟩
    obtain ⟨other, hother, hfound⟩ := (mem_openFiles hloader).1 hfile
    exact ⟨loader, hloader, other, hother,
      (Loader.sameFile_iff_respells hfound hfind (hne other hother)).1 hsame⟩
  · rintro ⟨loader', hloader', other, hother, hrespells⟩
    cases hloader.symm.trans hloader'
    obtain ⟨file, hfile, hfound⟩ := exists_mem_openFiles h hloader hother
    exact ⟨file, hfile,
      (Loader.sameFile_iff_respells hfound hfind (hne other hother)).2 hrespells⟩

end Stage

section Results

/-- **What lets a file be loaded again inside itself.** This happens just when the
name of an inclusion spells the file of another name in progress; names alone are
compared. -/
theorem opensNoFileTwice_iff (env : Environment) (nodes : List Node)
    (c : Context) :
    OpensNoFileTwice env nodes c ↔
      ∀ m name path loader,
        (Stage.start nodes c).Leads env m → m.Loads env name path →
          m.context.loader = some loader →
            ∀ other ∈ m.openNames, ¬ loader.Respells env.files other name := by
  constructor
  · intro h m name path loader hleads hload hloader other hother hrespells
    obtain ⟨file, hfile, hsame⟩ := (hload.reopens_iff hleads).2
      ⟨loader, hloader, other, hother, hrespells⟩
    exact h m name path hleads hload file hfile hsame
  · intro h m name path hleads hload file hfile hsame
    obtain ⟨loader, hloader, other, hother, hrespells⟩ :=
      (hload.reopens_iff hleads).1 ⟨file, hfile, hsame⟩
    exact h m name path loader hleads hload hloader other hother hrespells

/-- The text of a template that includes itself as `./a`, once. -/
def selfIncludingSource : String :=
  "(\x7b% ifnot inner %\x7d\x7b% for inner in once %\x7d" ++
    "\x7b% include './a' %\x7d\x7b% endfor %\x7d\x7b% endif %\x7d)"

/-- The file `t/a` with this text. -/
def selfIncluding : Environment where
  files := ⟨[("t", .directory [("a", .text selfIncludingSource)])], []⟩
  clock := ⟨0, 0, 0⟩

/-- A context that loads templates from `t`. -/
def selfIncludingContext : Context :=
  ⟨[], [("once", .array [.bool true])], some ⟨["t"], false⟩, []⟩

def selfIncludingNodes : List Node :=
  [.text "(",
    .branch ⟨"inner"⟩ [] [.loop "inner" ⟨"once"⟩ [.inclusion ⟨"'./a'"⟩] []],
    .text ")"]

/-- The stage before the inclusion of `./a`, four steps after that of `a`. -/
def selfIncludingStage : Stage :=
  .run selfIncluding 4
    ⟨[.nodes selfIncludingNodes, .leaveInclusion "a", .nodes []],
      selfIncludingContext.pushInclude "a", .ok ""⟩

theorem parseTokens_selfIncludingSource :
    parseTokens false (Token.tokenize selfIncludingSource) =
      .ok selfIncludingNodes := by
  cbv

theorem selfIncluding_load (name path : String)
    (hfind : Loader.find? ⟨["t"], false⟩ selfIncluding.files name = some path)
    (hread : selfIncluding.files.read path = .ok selfIncludingSource) :
    Loader.load ⟨["t"], false⟩ selfIncluding.files name =
      .ok ⟨some name, selfIncludingNodes⟩ :=
  Loader.load_eq_of_find? hfind hread parseTokens_selfIncludingSource

/-- The inclusion of `a` leads to that of `./a`. -/
theorem selfIncluding_leads :
    (Stage.start [.inclusion ⟨"'a'"⟩] selfIncludingContext).Leads selfIncluding
      selfIncludingStage := by
  have hload := selfIncluding_load "a" "t/a" rfl rfl
  have hfirst : (Stage.start [.inclusion ⟨"'a'"⟩] selfIncludingContext).step
      selfIncluding =
        some ⟨[.nodes selfIncludingNodes, .leaveInclusion "a", .nodes []],
          selfIncludingContext.pushInclude "a", .ok ""⟩ :=
    Stage.step_inclusion rfl rfl (by rfl) rfl hload
  exact .head hfirst (Stage.leads_run selfIncluding 4 _)

/-- The inclusion of `./a` renders the same nodes in the brackets of the first one. -/
theorem selfIncludingStage_leads :
    selfIncludingStage.Leads selfIncluding ⟨[], selfIncludingContext, .ok "(())"⟩ := by
  have hload := selfIncluding_load "./a" "t/./a" rfl rfl
  have hagain : selfIncludingStage.step selfIncluding =
      some ⟨.nodes selfIncludingNodes :: .leaveInclusion "./a" :: .nodes [] ::
          selfIncludingStage.tasks.tail,
        selfIncludingStage.context.pushInclude "./a", .ok "("⟩ :=
    Stage.step_inclusion rfl rfl (by rfl) rfl hload
  exact .head hagain (Stage.leads_run selfIncluding 14 _)

/-- **The file is loaded inside itself.** The inclusion of `./a` loads the file
that the inclusion of `a` has loaded and that is still in progress, and what it
renders is put out. -/
theorem selfIncluding_opens_file_twice :
    parseTokens false (Token.tokenize "\x7b% include 'a' %\x7d") =
        .ok [.inclusion ⟨"'a'"⟩] ∧
      (Template.render selfIncluding ⟨none, [.inclusion ⟨"'a'"⟩]⟩
        selfIncludingContext).outcome = .ok "(())" ∧
      ¬ OpensNoFileTwice selfIncluding [.inclusion ⟨"'a'"⟩]
        selfIncludingContext := by
  refine ⟨by cbv, ?_, fun h => ?_⟩
  · have hleads := selfIncluding_leads.trans selfIncludingStage_leads
    exact (Template.outcome_of_leads hleads rfl).trans rfl
  · have hload : selfIncludingStage.Loads selfIncluding "./a" "t/./a" :=
      ⟨rfl, _, _, rfl, selfIncluding_load "./a" "t/./a" rfl rfl, rfl⟩
    have hopen : selfIncludingStage.openFiles selfIncluding = ["t/a"] := rfl
    refine h _ _ _ selfIncluding_leads hload "t/a" ?_ rfl
    rw [hopen]
    exact List.mem_singleton_self "t/a"

/-- Where every file has one spelling among the names that an inclusion can
resolve to, no file is loaded inside itself. -/
theorem opensNoFileTwice_of_one_spelling {env : Environment} {nodes : List Node}
    {c : Context}
    (h : ∀ loader, c.loader = some loader →
      ∀ other ∈ includableNames env.files nodes c,
        ∀ name ∈ includableNames env.files nodes c,
          ¬ loader.Respells env.files other name) :
    OpensNoFileTwice env nodes c := by
  intro m name path hleads hload file hfile hsame
  obtain ⟨loader, hloader, other, hother, hrespells⟩ :=
    (hload.reopens_iff hleads).1 ⟨file, hfile, hsame⟩
  refine h loader ?_ other ?_ name ?_ hrespells
  · rw [← (chained_of_leads hleads).loader, hloader]
  · exact openNames_subset_includableNames hleads hother
  · exact nextName?_mem_includableNames hleads hload.next

end Results

end OpenFiles

end Templating
