import Mathlib
import Templating.CommandLine.Run
import Templating.Proofs.ConfigRounds
import Templating.Proofs.Containment
import Templating.Proofs.InclusionChain
import Templating.Proofs.RunOutput

/-!
# Where a request looks for templates

The search directories of a request come from three places: its own arguments, the
configuration file, and the directory of the template that it renders.  This module puts
the order together and follows it to every inclusion of the run.

**Configuration.**  The file is the one that the request names, or the one in the working
directory if there is one.  Its relative directories are relative to the file
(`RenderRequest.Configured`).

**Inclusion.**  The loader stays the same through the whole run.  A valid name that is not
being included is looked up in its directories: the first regular file is read and parsed
(`Stage.Includes`), and the name is not found exactly if there is none.  An inclusion that
fails at a stage of the run fails the rendering with its error, and the request ends as the
last stage of the run does.

Main definitions: `RenderRequest.Configured` and `Stage.Includes`.  Main statement:
`RenderRequest.search_order`.
-/

namespace Templating

section Loading

namespace Loader

variable {loader : Loader} {files : FileTree} {name dir : String}

/-- The file in the first directory that has one is loaded. -/
theorem load_of_firstIn (h : loader.FirstIn files name dir) (hin : ¬ Path.LeadsOut name) :
    loader.load files name =
      (loader.loadFile files (Path.join dir name)).map (Template.named name) := by
  have hcontained := (Path.isContained_iff_not_leadsOut name).2 hin
  have hfind : loader.find? files name = some (Path.join dir name) :=
    find?_eq_some_iff.2 ⟨hin, dir, h, rfl⟩
  simp only [load, hcontained, hfind, if_true]

/-- Without a regular file in any directory, the name is not found. -/
theorem load_of_forall (h : ∀ dir ∈ loader.dirs, files.isFile (Path.join dir name) = false)
    (hin : ¬ Path.LeadsOut name) :
    loader.load files name = .error (.notFound name loader.dirs) := by
  have hcontained := (Path.isContained_iff_not_leadsOut name).2 hin
  have hfind : loader.find? files name = none := by
    simpa [find?, hcontained, candidates] using h
  simp only [load, hcontained, hfind, if_true]

/-- Some directory is the first one with a regular file, or there is none. -/
theorem exists_firstIn_or (loader : Loader) (files : FileTree) (name : String) :
    (∃ dir, loader.FirstIn files name dir) ∨
      ∀ dir ∈ loader.dirs, files.isFile (Path.join dir name) = false := by
  cases hfind : (loader.candidates name).find? files.isFile with
  | some path =>
      obtain ⟨dir, hfirst, -⟩ := find?_candidates_eq_some_iff.1 hfind
      exact .inl ⟨dir, hfirst⟩
  | none => exact .inr (by simpa [candidates] using hfind)

end Loader

end Loading

section Inclusions

namespace Stage

/-- The next step looks up a valid name, which is not being included. -/
structure Resolves (m : Stage) (name : String) : Prop where
  next : m.nextName? = some name
  fresh : name ∉ m.context.includes
  valid : ¬ Path.LeadsOut name

/-- What becomes of the inclusion of a file under a name: its nodes are rendered next, or
the inclusion fails because the file cannot be parsed, or because it is not text. -/
inductive Includes (files : FileTree) (strict : Bool) (name path : String)
    (m next : Stage) : Prop where
  | parsed {source : String} {nodes : List Node} {tasks : List Task}
      (read : files.read path = .ok source)
      (parse : parseTokens strict (Token.tokenize source) = .ok nodes)
      (tasks : next.tasks = .nodes nodes :: .leaveInclusion name :: tasks)
      (context : next.context = m.context.pushInclude name)
      (output : next.output = m.output)
  | unparsed {source : String} {cause : ParseError}
      (read : files.read path = .ok source)
      (parse : parseTokens strict (Token.tokenize source) = .error cause)
      (output : next.output = .error (.inclusion name (.parse cause)))
  | unreadable {cause : FileError}
      (read : files.read path = .error cause)
      (output : next.output = .error (.inclusion name (.unreadable path cause)))

variable {env : Environment} {m next : Stage} {name path : String} {loader : Loader}

theorem step_of_nextName? (env : Environment) (h : m.nextName? = some name) :
    ∃ tasks s, m.output = .ok s ∧
      m.step env = some (beginInclusion env.files name tasks m.context s) := by
  obtain ⟨tasks, c, out⟩ := m
  unfold nextName? at h
  split at h
  · next source rest tasks s htasks hout =>
      cases h
      simp only at htasks hout
      subst htasks hout
      exact ⟨.nodes rest :: tasks, s, rfl, rfl⟩
  · cases h

/-- A file that has been found is never said not to be found. -/
theorem Includes.output_ne {strict : Bool} {s : String} (hm : m.output = .ok s)
    (h : m.Includes env.files strict name path next) (other : String)
    (searched : List String) :
    next.output ≠ .error (.inclusion name (.notFound other searched)) := by
  cases h with
  | parsed _ _ _ _ output => simp [output, hm]
  | unparsed _ _ output => simp [output]
  | unreadable _ output => simp [output]

/-- **An inclusion takes the first regular file**, and its name is not found exactly if
there is none. -/
theorem Resolves.step (h : m.Resolves name) (hloader : m.context.loader = some loader) :
    ∃ next, m.step env = some next ∧
      (∀ dir, loader.FirstIn env.files name dir →
        m.Includes env.files loader.strict name (Path.join dir name) next) ∧
      ((∃ searched, next.output = .error (.inclusion name (.notFound name searched))) ↔
        ∀ dir ∈ loader.dirs, env.files.isFile (Path.join dir name) = false) := by
  obtain ⟨tasks, s, hout, hstep⟩ := step_of_nextName? env h.next
  have hguard := inclusionLoader_eq_ok_iff.2 ⟨hloader, h.fresh⟩
  have hfound : ∀ dir, loader.FirstIn env.files name dir →
      m.Includes env.files loader.strict name (Path.join dir name)
        (beginInclusion env.files name tasks m.context s) := by
    intro dir hfirst
    simp only [beginInclusion, hguard, Loader.load_of_firstIn hfirst h.valid,
      Loader.loadFile, Template.parse]
    cases hread : env.files.read (Path.join dir name) with
    | error cause => exact .unreadable hread rfl
    | ok source =>
        simp only
        cases hparse : parseTokens loader.strict (Token.tokenize source) with
        | error cause => exact .unparsed hread hparse rfl
        | ok nodes => exact .parsed hread hparse rfl rfl hout.symm
  refine ⟨_, hstep, hfound, ?_⟩
  constructor
  · rintro ⟨searched, houtput⟩
    rcases loader.exists_firstIn_or env.files name with ⟨dir, hfirst⟩ | hnone
    · exact absurd houtput ((hfound dir hfirst).output_ne hout name searched)
    · exact hnone
  · intro hnone
    refine ⟨loader.dirs, ?_⟩
    simp only [beginInclusion, hguard, Loader.load_of_forall hnone h.valid]

end Stage

end Inclusions

section Rebasing

/-- Rebasing joins the relative search directories only. -/
theorem Config.rebase_eq (base : String) (c : Config) :
    c.rebase base = ⟨c.strict, c.dirs.map fun dir =>
      if Path.isAbsolute dir then dir else Path.join base dir⟩ := by
  refine congrArg (Config.mk c.strict) (List.map_congr_left fun dir _ => ?_)
  split
  · next habsolute => exact Path.join_eq_self_iff.2 (.inr habsolute)
  · rfl

end Rebasing

namespace CommandLine

section Configuration

/-- The configuration file that a request reads. -/
inductive RenderRequest.ReadsConfig (request : RenderRequest) (files : FileTree) :
    String → Prop where
  | named {path : String} (h : request.config = some path) : ReadsConfig request files path
  | implicit (hunnamed : request.config = none) (hexists : files.exists? configFile = true) :
      ReadsConfig request files configFile

/-- The configuration that a request begins with: that of its file, in which each relative
search directory is joined to the directory of the file, or the default one. -/
inductive RenderRequest.Configured (request : RenderRequest) (files : FileTree) :
    Config → Prop where
  | file {path content base : String} {c : Config}
      (reads : request.ReadsConfig files path)
      (read : files.read path = .ok content)
      (text : Config.ofText? content = some c)
      (directory : Path.parent? path = some base) :
      Configured request files
        ⟨c.strict, c.dirs.map fun dir =>
          if Path.isAbsolute dir then dir else Path.join base dir⟩
  | absent (hunnamed : request.config = none) (habsent : files.exists? configFile = false) :
      Configured request files .default

variable {request : RenderRequest} {files : FileTree}

/-- A configuration that is loaded from the file of a request is the one that the request
begins with. -/
theorem RenderRequest.ReadsConfig.configured {path : String} {c : Config}
    (h : request.ReadsConfig files path) (hload : Config.load files path = .ok c) :
    request.Configured files c := by
  obtain ⟨content, c₀, base, hread, htext, hbase, rfl⟩ := Config.load_eq_ok_iff.1 hload
  rw [Config.rebase_eq]
  exact .file h hread htext hbase

/-- **The search directories**: those of the arguments, those of the configuration, and
that of the template. -/
theorem RenderRequest.loader_eq_ok {loader : Loader}
    (h : request.loader files = .ok loader) :
    ∃ c, request.Configured files c ∧
      loader = ⟨request.dirs ++ c.dirs ++ (Path.parent? request.template).toList,
        c.strict || request.strict⟩ := by
  unfold RenderRequest.loader at h
  cases hnamed : request.config with
  | some path =>
      rw [hnamed] at h
      cases hload : Config.load files path with
      | error e => simp [hload] at h
      | ok c =>
          simp only [hload, Except.ok.injEq] at h
          exact ⟨c, RenderRequest.ReadsConfig.configured (.named hnamed) hload, h.symm⟩
  | none =>
      rw [hnamed] at h
      cases hload : Config.loadOrDefault files configFile with
      | error e => simp [hload] at h
      | ok c =>
          simp only [hload, Except.ok.injEq] at h
          refine ⟨c, ?_, h.symm⟩
          unfold Config.loadOrDefault at hload
          split at hload
          · next hexists =>
              exact RenderRequest.ReadsConfig.configured (.implicit hnamed hexists) hload
          · next habsent =>
              cases hload
              exact .absent hnamed (by simpa using habsent)

end Configuration

section Requests

variable {request : RenderRequest} {env : Environment} {loader : Loader} {t : Template}

/-- **The order of the search.**  If the configuration and the template of a request can be
loaded, every inclusion of the run looks in the directories of the arguments, then in those
of the configuration, and then in that of the template; what it finds is parsed strictly
if the request or the configuration says so.  The last stage of the run has the outcome of
the rendering, which is that of the request, and so has every stage with an error. -/
theorem RenderRequest.search_order (hloader : request.loader env.files = .ok loader)
    (hload : loader.loadFile env.files request.template = .ok t) :
    (∃ config home, request.Configured env.files config ∧
      Path.parent? request.template = some home ∧
      loader.dirs = request.dirs ++ config.dirs ++ [home] ∧
      loader.strict = (config.strict || request.strict)) ∧
    (∀ r, request.rendered env = .ok r →
      ∃ c : Context, r = t.render env (c.withLoader loader) ∧
        ∃ last, (Stage.start t.nodes (c.withLoader loader)).Leads env last ∧
          last.step env = none ∧
          request.run env = last.output.mapError (.render request.template)) ∧
    ∀ c : Context,
      (∃ last, (Stage.start t.nodes (c.withLoader loader)).Leads env last ∧
        last.step env = none ∧
        (t.render env (c.withLoader loader)).outcome = .ofExcept last.output) ∧
      ∀ (m : Stage) (name : String),
        (Stage.start t.nodes (c.withLoader loader)).Leads env m → m.Resolves name →
          ∃ next, m.step env = some next ∧
            (∀ dir, loader.FirstIn env.files name dir →
              m.Includes env.files loader.strict name (Path.join dir name) next) ∧
            ((∃ searched,
                next.output = .error (.inclusion name (.notFound name searched))) ↔
              ∀ dir ∈ loader.dirs, env.files.isFile (Path.join dir name) = false) ∧
            ∀ e, next.output = .error e →
              (t.render env (c.withLoader loader)).outcome = .error e := by
  refine ⟨?_, ?_, fun c => ⟨t.exists_last env _, ?_⟩⟩
  · obtain ⟨config, hconfig, rfl⟩ := loader_eq_ok hloader
    cases hread : env.files.read request.template with
    | error e => simp [Loader.loadFile, hread] at hload
    | ok source =>
        obtain ⟨home, hhome⟩ := Config.exists_parent?_of_read hread
        refine ⟨config, home, hconfig, hhome, ?_, rfl⟩
        rw [hhome, Option.toList_some]
  · intro r hrendered
    obtain ⟨loader', t', base, c, hloader', hload', -, -, rfl⟩ :=
      rendered_eq_ok_iff.1 hrendered
    cases hloader.symm.trans hloader'
    cases hload.symm.trans hload'
    exact ⟨c, rfl, exists_last hrendered⟩
  · intro m name hleads hresolves
    obtain ⟨next, hstep, hincludes, hnotFound⟩ :=
      hresolves.step (chained_of_leads hleads).loader
    exact ⟨next, hstep, hincludes, hnotFound,
      fun e => Template.outcome_eq_error (hleads.tail hstep)⟩

/-- A template that includes `x`.  In the directory of the arguments `x` is no regular file;
there is one in that of the configuration and one beside the template. -/
def threePlaces : Environment where
  files :=
    ⟨[("conf", .directory [("stencil.toml", .text (Config.text ⟨true, ["parts"]⟩)),
        ("parts", .directory [("x", .text "part")])]),
      ("over", .directory [("x", .directory [])]),
      ("site", .directory [("page.html", .text "\x7b% include 'x' %\x7d"),
        ("x", .text "own")])], []⟩
  clock := ⟨0, 0, 0⟩

/-- A request with a directory and a configuration file. -/
def threePlacesRequest : RenderRequest :=
  ⟨"site/page.html", none, [], some "conf/stencil.toml", ["over"], false⟩

/-- The loader of the request. -/
def threePlacesLoader : Loader :=
  ⟨["over", "conf/parts", "site"], true⟩

theorem loader_threePlaces :
    threePlacesRequest.loader threePlaces.files = .ok threePlacesLoader := by
  have hconfig : Config.load threePlaces.files "conf/stencil.toml" =
      .ok (Config.rebase "conf" ⟨true, ["parts"]⟩) :=
    Config.load_of_read (by decide) rfl
  have hhome : Path.parent? "site/page.html" = some "site" := by decide +kernel
  simp only [RenderRequest.loader, threePlacesRequest, hconfig, hhome]
  rfl

theorem loadFile_threePlaces :
    threePlacesLoader.loadFile threePlaces.files threePlacesRequest.template =
      .ok ⟨some "site/page.html", [.inclusion ⟨"'x'"⟩]⟩ := by
  have hread : threePlaces.files.read "site/page.html" =
      .ok "\x7b% include 'x' %\x7d" := rfl
  have hparse : parseTokens true (Token.tokenize "\x7b% include 'x' %\x7d") =
      .ok [.inclusion ⟨"'x'"⟩] := by cbv
  simp only [Loader.loadFile, threePlacesRequest, threePlacesLoader, hread, Template.parse,
    hparse]
  rfl

/-- The steps of the run: the inclusion takes the file of the configuration. -/
theorem outcome_threePlaces :
    (Template.render threePlaces ⟨some "site/page.html", [.inclusion ⟨"'x'"⟩]⟩
      (Context.empty.withLoader threePlacesLoader)).outcome = .ok "part" := by
  have hfind : threePlacesLoader.find? threePlaces.files "x" = some "conf/parts/x" := rfl
  have hload : threePlacesLoader.load threePlaces.files "x" =
      .ok ⟨some "x", [.text "part"]⟩ := Loader.load_eq_of_find? hfind rfl (by cbv)
  have hfirst : Stage.step threePlaces
      (.start [.inclusion ⟨"'x'"⟩] (Context.empty.withLoader threePlacesLoader)) =
        some ⟨[.nodes [.text "part"], .leaveInclusion "x", .nodes []],
          (Context.empty.withLoader threePlacesLoader).pushInclude "x", .ok ""⟩ :=
    Stage.step_inclusion rfl rfl (by rfl) rfl hload
  have hleads : (Stage.start [.inclusion ⟨"'x'"⟩]
      (Context.empty.withLoader threePlacesLoader)).Leads threePlaces
        ⟨[], Context.empty.withLoader threePlacesLoader, .ok "part"⟩ :=
    .head hfirst (Stage.leads_run threePlaces 4 _)
  exact (Template.outcome_of_leads hleads rfl).trans rfl

/-- The name `x` is looked up in the directories of the request, and what the request puts
out is the file that the configuration stands for. -/
theorem threePlaces_includes_part :
    (threePlacesRequest.loader threePlaces.files = .ok threePlacesLoader ∧
      threePlacesLoader.loadFile threePlaces.files threePlacesRequest.template =
        .ok ⟨some "site/page.html", [.inclusion ⟨"'x'"⟩]⟩) ∧
      threePlacesRequest.run threePlaces = .ok "part" ∧
      ∃ next, Stage.step threePlaces (.start [.inclusion ⟨"'x'"⟩]
          (Context.empty.withLoader threePlacesLoader)) = some next ∧
        Stage.Includes threePlaces.files true "x" "conf/parts/x"
          (.start [.inclusion ⟨"'x'"⟩] (Context.empty.withLoader threePlacesLoader))
          next := by
  refine ⟨⟨loader_threePlaces, loadFile_threePlaces⟩, ?_, ?_⟩
  · exact RenderRequest.run_eq_ok_iff.2 ⟨_, RenderRequest.rendered_eq_ok_iff.2
      ⟨_, _, .empty, .empty, loader_threePlaces, loadFile_threePlaces, rfl, rfl, rfl⟩,
      outcome_threePlaces⟩
  · obtain ⟨-, -, hrun⟩ :=
      RenderRequest.search_order loader_threePlaces loadFile_threePlaces
    have hresolves : Stage.Resolves (.start [.inclusion ⟨"'x'"⟩]
        (Context.empty.withLoader threePlacesLoader)) "x" :=
      ⟨by decide +kernel, List.not_mem_nil,
        (Path.isContained_iff_not_leadsOut "x").1 rfl⟩
    have hfirst : threePlacesLoader.FirstIn threePlaces.files "x" "conf/parts" :=
      ⟨rfl, ["over"], ["site"], rfl, List.forall_mem_singleton.2 rfl⟩
    obtain ⟨next, hstep, hincludes, -⟩ := (hrun .empty).2 _ "x" .refl hresolves
    exact ⟨next, hstep, hincludes "conf/parts" hfirst⟩

end Requests

end CommandLine

end Templating
