import Sidecar.Config.Program

/-!
# Where a command is found

Two searches go through the paths that a command may mean: a locator looks for a file that may be
executed, and when it finds none, the reason is looked for among all files. They go through the same
paths (`findFile?_eq`), so the reason is that of the paths that the locator has passed over
(`resolveBy_by_candidates`). What a locator is relied on for is said by `LocatedBy`.
-/

namespace Sidecar

namespace Environment

/-- What a locator is relied on for: it takes the first path that a command may mean and that names
a file that may be executed, and gives it as an absolute one. -/
structure LocatedBy (env : Environment) (locate : String → Except String String) : Prop where
  found : ∀ {name path : String},
    (env.candidates name).find? (env.files.isExecutable env.dir) = some path →
      locate name = .ok (Path.absolute env.dir path)
  missed : ∀ {name : String},
    (env.candidates name).find? (env.files.isExecutable env.dir) = none →
      ∃ text, locate name = .error text

/-- Locates a command, or says why there is none. -/
def locate (env : Environment) (name : String) : Except String String :=
  match env.findExecutable? name with
  | some path => .ok (Path.absolute env.dir path)
  | none =>
    .error (if 1 < Path.count name ∨ env.searchPath.isSome then "cannot find binary path"
      else "no path to search and provided name is not an absolute path")

/-- Locating a command is what a locator is relied on for. -/
theorem locatedBy_locate (env : Environment) : env.LocatedBy env.locate where
  found h := by rw [locate, findExecutable?, h]
  missed h := by
    rw [locate, findExecutable?, h]
    exact ⟨_, rfl⟩

/-- A file is looked for among the paths that the command may mean. -/
theorem findFile?_eq (env : Environment) (name : String) :
    env.findFile? name = (env.candidates name).find? (env.files.isFile env.dir) := by
  unfold findFile? candidates
  split
  · rw [List.find?_singleton]
  · cases env.searchDirs? <;> rfl

/-- A file is found just if a path that the command may mean names one. -/
theorem isSome_findFile?_iff (env : Environment) (name : String) :
    (env.findFile? name).isSome = true ↔
      ∃ path ∈ env.candidates name, env.files.isFile env.dir path = true := by
  rw [findFile?_eq, List.find?_isSome]

end Environment

namespace Config

/-- Locates the command of a configuration, given a locator of executables. -/
def resolveBy (c : Config) (env : Environment) (locate : String → Except String String) :
    Except Failure String :=
  match locate c.name with
  | .ok path => .ok path
  | .error text =>
    let kind := if (env.findFile? c.name).isSome then IoKind.permissionDenied else .notFound
    .error (.spawn c.commandLine ⟨kind, text⟩)

/-- A command is located by the search of the environment, so that what holds of every locator holds
of `resolveProgram`. -/
theorem resolveProgram_eq (c : Config) (env : Environment) :
    c.resolveProgram env = c.resolveBy env env.locate := by
  unfold resolveProgram resolveBy Environment.locate
  cases env.findExecutable? c.name <;> rfl

/-- A command is where the first path names a file that may be executed, of those that the command
may mean. When there is none, permission is denied just if one of these paths names a file, and
otherwise nothing was found. -/
theorem resolveBy_by_candidates (c : Config) (env : Environment)
    {locate : String → Except String String} (h : env.LocatedBy locate) :
    (∀ before path after, env.candidates c.name = before ++ path :: after →
      (∀ earlier ∈ before, env.files.isExecutable env.dir earlier = false) →
      env.files.isExecutable env.dir path = true →
        c.resolveBy env locate = .ok (Path.absolute env.dir path)) ∧
    ((∀ path ∈ env.candidates c.name, env.files.isExecutable env.dir path = false) →
      ∃ cause, c.resolveBy env locate = .error (.spawn c.commandLine cause) ∧
        (cause.kind = .permissionDenied ↔
          ∃ path ∈ env.candidates c.name, env.files.isFile env.dir path = true) ∧
        (cause.kind = .notFound ↔
          ∀ path ∈ env.candidates c.name, env.files.isFile env.dir path = false)) ∧
    (c.resolveProgram env = c.resolveBy env env.locate ∧ env.LocatedBy env.locate) := by
  refine ⟨fun before path after hcut hbefore hpath ↦ ?_, fun hnone ↦ ?_,
    c.resolveProgram_eq env, env.locatedBy_locate⟩
  · have hfirst : (env.candidates c.name).find? (env.files.isExecutable env.dir) = some path := by
      rw [List.find?_eq_some_iff_append]
      exact ⟨hpath, before, after, hcut, by simpa using hbefore⟩
    rw [resolveBy, h.found hfirst]
  · have hmissed : (env.candidates c.name).find? (env.files.isExecutable env.dir) = none := by
      simpa using hnone
    obtain ⟨text, htext⟩ := h.missed hmissed
    have hfile := env.isSome_findFile?_iff c.name
    have hnofile : (env.findFile? c.name).isSome = false ↔
        ∀ path ∈ env.candidates c.name, env.files.isFile env.dir path = false := by
      rw [← Bool.not_eq_true, hfile]
      simp
    rw [resolveBy, htext, ← hfile, ← hnofile]
    refine ⟨_, rfl, ?_⟩
    cases (env.findFile? c.name).isSome <;> simp

/-! ## Three commands -/

/-- An empty entry in the search path and a relative one. A file that may not be executed is in the
way of one that may, and a directory in the way of a file that may not. -/
def rack (searchPath : Option String) : Environment where
  files := ⟨[(["b"], .directory), (["t"], .file [] false), (["b", "t"], .file [] true),
    (["u"], .directory), (["b", "u"], .file [] false)]⟩
  dir := "/"
  searchPath := searchPath

private theorem names_rack :
    Path.names "/" = ["", ""] ∧ Path.names "t" = ["t"] ∧ Path.names "b/t" = ["b", "t"] ∧
      Path.names "u" = ["u"] ∧ Path.names "b/u" = ["b", "u"] := by
  simp +decide [Path.names, String.splitOn, String.splitOnAux]

private theorem candidates_rack :
    (rack (some ":b")).candidates "t" = ["t", "b/t"] ∧
      (rack (some ":b")).candidates "u" = ["u", "b/u"] ∧ (rack none).candidates "t" = [] := by
  obtain ⟨-, ht, -, hu, -⟩ := names_rack
  have hdirs : (":b" : String).splitOn ":" = ["", "b"] := by
    simp +decide [String.splitOn, String.splitOnAux]
  have hends : ("b" : String).endsWith "/" = false := by decide +kernel
  simp +decide [Environment.candidates, Environment.searchDirs?, rack, Path.count, Path.parts,
    Path.join, Path.isAbsolute, ht, hu, hdirs, hends]

private theorem files_rack (searchPath : Option String) :
    let files := (rack searchPath).files
    files.isExecutable "/" "t" = false ∧ files.isExecutable "/" "b/t" = true ∧
      files.isExecutable "/" "u" = false ∧ files.isExecutable "/" "b/u" = false ∧
      files.isFile "/" "b/u" = true := by
  obtain ⟨hroot, ht, hbt, hu, hbu⟩ := names_rack
  simp +decide [FileTree.isExecutable, FileTree.isFile, FileTree.find?, rack, FileTree.walk,
    FileTree.descend, FileTree.get?, Path.isAbsolute, Path.parts, hroot, ht, hbt, hu, hbu]

private theorem absolute_rack : Path.absolute "/" "b/t" = "/b/t" := by
  obtain ⟨-, -, hbt, -⟩ := names_rack
  have hroot : ("/" : String).endsWith "/" = true := by decide +kernel
  have hb : ("/b" : String).endsWith "/" = false := by decide +kernel
  simp +decide [Path.absolute, Path.parts, Path.join, Path.isAbsolute, hbt, hroot, hb]

/-- The first command is found behind a file that may not be executed. Permission for the second is
denied, as a file is behind a directory. Without a search path the first is not found either. -/
theorem resolveBy_by_candidates_rack :
    let env := rack (some ":b")
    let bare := rack none
    (env.LocatedBy env.locate ∧ env.candidates "t" = ["t"] ++ "b/t" :: [] ∧
      ({ name := "t" } : Config).resolveBy env env.locate = .ok "/b/t") ∧
    (env.candidates "u" = ["u", "b/u"] ∧
      ∃ cause, ({ name := "u" } : Config).resolveBy env env.locate =
        .error (.spawn "u" cause) ∧ cause.kind = .permissionDenied) ∧
    (bare.LocatedBy bare.locate ∧
      ∃ cause, ({ name := "t" } : Config).resolveBy bare bare.locate =
        .error (.spawn "t" cause) ∧ cause.kind = .notFound) := by
  intro env bare
  obtain ⟨hfirst, hsecond, hnone⟩ := candidates_rack
  obtain ⟨ht, hbt, hu, hbu, hfile⟩ := files_rack (some ":b")
  have hlocated := env.locatedBy_locate
  have hbare := bare.locatedBy_locate
  refine ⟨⟨hlocated, hfirst, ?_⟩, ⟨hsecond, ?_⟩, hbare, ?_⟩
  · obtain ⟨hfound, -⟩ := resolveBy_by_candidates { name := "t" } env hlocated
    have hpassed : ∀ earlier ∈ ["t"], env.files.isExecutable env.dir earlier = false := by
      intro earlier hmem
      obtain rfl := List.mem_singleton.mp hmem
      exact ht
    exact (hfound ["t"] "b/t" [] hfirst hpassed hbt).trans (congrArg _ absolute_rack)
  · obtain ⟨-, hmissed, -⟩ := resolveBy_by_candidates { name := "u" } env hlocated
    rw [hsecond] at hmissed
    obtain ⟨cause, hcause, hdenied, -⟩ := hmissed (by simpa using ⟨hu, hbu⟩)
    exact ⟨cause, hcause, hdenied.mpr ⟨"b/u", by simp, hfile⟩⟩
  · obtain ⟨-, hmissed, -⟩ := resolveBy_by_candidates { name := "t" } bare hbare
    rw [hnone] at hmissed
    obtain ⟨cause, hcause, -, hmissing⟩ := hmissed (by simp)
    exact ⟨cause, hcause, hmissing.mpr (by simp)⟩

end Config
end Sidecar
