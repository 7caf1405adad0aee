import Sidecar.CommandLine.Run
import Sidecar.Proofs.Config.Reading

/-!
# Checked configurations are read back

A configuration that a file holds is valid (`validate_of_ofFile`), so what a check prints of it as
JSON is read as the same configuration. The same holds of any valid configuration whose document
lists its fields in any order, and may leave out those that have their defaults.
-/

namespace Sidecar

namespace Config

/-- A configuration that is returned after its validation is valid. -/
theorem validate_of_map {c d : Config} (h : (c.validate.map fun () ↦ c) = .ok d) :
    d.validate = .ok () := by
  cases hvalid : c.validate with
  | error failure =>
    rw [hvalid] at h
    cases h
  | ok =>
    rw [hvalid] at h
    cases h
    exact hvalid

/-- What is read from JSON is valid. -/
theorem validate_of_ofJson {source : String} {c : Config} (h : ofJson source = .ok c) :
    c.validate = .ok () := by
  rw [ofJson] at h
  split at h
  · cases h
  · exact validate_of_map h

/-- What is read from TOML is valid. -/
theorem validate_of_ofToml {source : String} {c : Config} (h : ofToml source = .ok c) :
    c.validate = .ok () := by
  rw [ofToml] at h
  split at h
  · cases h
  · split at h
    · cases h
    · exact validate_of_map h

/-- An outcome whose errors are reported in another way is a success for the same reason. -/
theorem eq_ok_of_mapError {α ε δ : Type} {f : ε → δ} {x : Except ε α} {a : α}
    (h : x.mapError f = .ok a) : x = .ok a := by
  cases x with
  | error e => cases h
  | ok b =>
    cases h
    rfl

/-- What a file holds is valid. -/
theorem validate_of_ofFile {files : FileTree} {dir path : String} {c : Config}
    (h : ofFile files dir path = .ok c) : c.validate = .ok () := by
  rw [ofFile] at h
  split at h
  · cases h
  · split at h
    · exact validate_of_ofToml (eq_ok_of_mapError h)
    · exact validate_of_ofJson (eq_ok_of_mapError h)
    · cases h

end Config

namespace CommandLine

/-- A check that succeeds prints the configuration in the file. -/
theorem check_of_code {path : String} {asJson : Bool} {env : Environment}
    (h : (check path asJson env).code = 0) :
    ∃ c program, Config.ofFile env.files env.dir path = .ok c ∧
      c.resolveProgram env = .ok program ∧
      check path asJson env =
        .written (if asJson then c.toJson ++ "\n" else summary path c program) := by
  unfold check at h ⊢
  split at h
  · cases h
  · next c hfile =>
    split at h
    · cases h
    · next program hprogram =>
      exact ⟨c, program, hfile, hprogram, rfl⟩

/-- A valid configuration is read back from any JSON text that lists fields of it, in any order,
and leaves out none but defaults; so it is from what a check prints of it. -/
theorem configurations_read_back :
    (∀ (c : Config) (fields : List Config.Field) (layout : Json.Layout),
      c.validate = .ok () → fields.Nodup →
      (∀ field, field ∉ fields → c.get field = ({} : Config).get field) → layout.IsBlank →
      Config.ofJson (String.ofList ((c.toDocument fields).print layout)) = .ok c) ∧
    (∀ (path : String) (env : Environment), (check path true env).code = 0 →
      ∃ c text, Config.ofFile env.files env.dir path = .ok c ∧
        check path true env = .written text ∧ Config.ofJson text = .ok c) := by
  constructor
  · intro c fields layout hvalid hnodup hdefault hblank
    have hread := Json.Document.isReadAs hblank (c.isReadable_toDocument fields)
    have hback := Config.ofJson_of_isReadAs [] hvalid hnodup hdefault hread
      (fun _ h ↦ absurd h List.not_mem_nil)
    rwa [List.append_nil] at hback
  · intro path env hcode
    obtain ⟨c, program, hfile, -, hcheck⟩ := check_of_code hcode
    refine ⟨c, c.toJson ++ "\n", hfile, hcheck, ?_⟩
    have hread := Json.Document.isReadAs Json.Layout.isBlank_pretty
      (c.isReadable_toDocument Config.Field.all)
    have hback := Config.ofJson_of_isReadAs ['\n'] (Config.validate_of_ofFile hfile)
      (by decide) (fun field h ↦ absurd (Config.Field.mem_all field) h) hread
      (by rintro _ (_ | ⟨_, ⟨⟩⟩); rfl)
    rwa [String.ofList_append] at hback

/-- A directory with a configuration file and the command that it leaves at its default. -/
def shelf : Environment where
  files := ⟨[(["a.toml"], .file (Bytes.ofString "parts = [-1]") false), (["cat"], .tool .cat)]⟩
  dir := "/"
  searchPath := some "/"

/-- The configuration on the shelf. -/
private theorem ofFile_shelf :
    Config.ofFile shelf.files shelf.dir "a.toml" = .ok { parts := [-1] } := by
  have hnames : Path.names "a.toml" = ["a.toml"] := by
    simp +decide [Path.names, String.splitOn, String.splitOnAux]
  have hroot : Path.names "/" = ["", ""] := by
    simp +decide [Path.names, String.splitOn, String.splitOnAux]
  have hrelative : Path.isAbsolute "a.toml" = false := by simp +decide [Path.isAbsolute]
  have hextension : Path.extension? "a.toml" = some "toml" := by
    simp +decide [Path.extension?, Path.parts, hnames, String.splitOn, String.splitOnAux]
  have hparts : Path.parts shelf.dir = [] := by
    rw [Path.parts, shelf, hroot]
    rfl
  have hwalk : shelf.files.walk shelf.dir "a.toml" = .ok ["a.toml"] := by
    simp +decide [FileTree.walk, hnames, hrelative, hparts]
  have htext : shelf.files.readText shelf.dir "a.toml" = .ok "parts = [-1]" := by
    rw [FileTree.readText, FileTree.read, hwalk]
    rfl
  simp only [Config.ofFile, htext, hextension]
  rfl

/-- Where the command on the shelf is. -/
theorem walk_shelf : shelf.files.walk shelf.dir "/cat" = .ok ["cat"] := by
  have hjoined : Path.names "/cat" = ["", "cat"] := by
    simp +decide [Path.names, String.splitOn, String.splitOnAux]
  have habsolute : Path.isAbsolute "/cat" = true := by simp +decide [Path.isAbsolute]
  simp +decide [FileTree.walk, hjoined, habsolute]

/-- The command on the shelf is found. -/
theorem findExecutable?_shelf : shelf.findExecutable? "cat" = some "/cat" := by
  have hnames : Path.names "cat" = ["cat"] := by
    simp +decide [Path.names, String.splitOn, String.splitOnAux]
  have hdirs : ("/" : String).splitOn ":" = ["/"] := by
    simp +decide [String.splitOn, String.splitOnAux]
  have hrelative : Path.isAbsolute "cat" = false := by simp +decide [Path.isAbsolute]
  have hends : ("/" : String).endsWith "/" = true := by decide +kernel
  have hcandidates : shelf.candidates "cat" = ["/cat"] := by
    simp +decide [Environment.candidates, Environment.searchDirs?, shelf, Path.count, Path.parts,
      Path.join, hnames, hrelative, hdirs, hends]
  have hexecutable : shelf.files.isExecutable shelf.dir "/cat" = true := by
    rw [FileTree.isExecutable, FileTree.find?, walk_shelf]
    rfl
  rw [Environment.findExecutable?, hcandidates, List.find?_cons, hexecutable]

/-- The command on the shelf is what a configuration runs that does not name another one. -/
theorem resolveProgram_of_name {c : Config} (hname : c.name = "cat") :
    c.resolveProgram shelf = .ok "/cat" := by
  have habsolute : Path.isAbsolute "/cat" = true := by simp +decide [Path.isAbsolute]
  simp only [Config.resolveProgram, hname, findExecutable?_shelf, Path.absolute, habsolute]
  rfl

/-- The configuration on the shelf names no other command. -/
private theorem resolveProgram_shelf :
    ({ parts := [-1] } : Config).resolveProgram shelf = .ok "/cat" := resolveProgram_of_name rfl

/-- A configuration with quotes, control characters and the last numbers in it is read back from
four of its fields in another order; and the configuration on the shelf is read back when a check
has printed it. -/
theorem configurations_read_back_escaped :
    let c : Config := { name := "a\"\\\x01", args := ["\n", "é\x7f"],
                        parts := [-1, Int64.minValue], maxBuffer := 0xffffffffffffffff }
    let source := "\x7b\"parts\":[-1,-9223372036854775808],\"max_buffer\":18446744073709551615," ++
      "\"args\":[\"\\n\",\"é\x7f\"],\"name\":\"a\\\"\\\\\\u0001\"\x7d"
    Config.ofJson source = .ok c ∧ (check "a.toml" true shelf).code = 0 ∧
      ∃ text, check "a.toml" true shelf = .written text ∧
        Config.ofJson text = .ok { parts := [-1] } := by
  intro c source
  have hcode : (check "a.toml" true shelf).code = 0 := by
    simp only [check, ofFile_shelf, resolveProgram_shelf]
    rfl
  refine ⟨?_, hcode, ?_⟩
  · have hprint : String.ofList ((c.toDocument [.parts, .maxBuffer, .args, .name]).print .compact) =
        source := by decide +kernel
    have hrefusal : c.refusal? = none := by decide +kernel
    have hvalid : c.validate = .ok () := by rw [Config.validate, hrefusal]
    rw [← hprint]
    refine configurations_read_back.1 c _ _ hvalid (by decide) ?_ Json.Layout.isBlank_compact
    intro field hfield
    cases field <;> first | rfl | exact absurd hfield (by decide)
  · obtain ⟨d, text, hfile, hcheck, hback⟩ := configurations_read_back.2 "a.toml" shelf hcode
    rw [ofFile_shelf] at hfile
    cases hfile
    exact ⟨text, hcheck, hback⟩

end CommandLine
end Sidecar
