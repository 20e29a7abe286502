import ResourceIndex.Proofs.FileSystem.Written
import ResourceIndex.Proofs.Toml.Document
import ResourceIndex.Settings.Store

/-!
# Settings written and read

Settings that were written are read as they were, whatever texts they hold, and are then checked like any others. No
text is read as settings that the check refuses.
-/

namespace ResourceIndex.Settings

/-! ### Values -/

theorem value?_writtenTexts (depth : Nat) (ss : List String) (rest : List Char) :
    Toml.value? (depth + 1) (writtenTexts ss ++ '\n' :: rest) = some (.array (ss.map .text), '\n' :: rest) := by
  match ss with
  | [] => rfl
  | [s] =>
    have hwritten : writtenTexts [s] ++ '\n' :: rest = '[' :: (Toml.writtenText s ++ ']' :: '\n' :: rest) := by
      simp [writtenTexts]
    have hitems (fuel : Nat) (hfuel : 0 < fuel) :
        Toml.items? (Toml.value? depth) fuel (Toml.writtenText s ++ ']' :: '\n' :: rest) =
          some ([.text s], '\n' :: rest) := by
      obtain ⟨fuel, rfl⟩ := Nat.exists_eq_add_one.mpr hfuel
      exact Toml.items?_single depth fuel s ('\n' :: rest)
    rw [hwritten, Toml.value?, hitems _ (by simp)]
    rfl
  | s :: t :: ss =>
    have hwritten : writtenTexts (s :: t :: ss) ++ '\n' :: rest =
        '[' :: '\n' :: (Toml.textLines (s :: t :: ss) ++ ']' :: '\n' :: rest) := by
      simp [writtenTexts, Toml.textLines]
    have hfuel : (s :: t :: ss).length < ('\n' :: (Toml.textLines (s :: t :: ss) ++ ']' :: '\n' :: rest)).length := by
      have hlength := Toml.length_le_length_textLines (s :: t :: ss)
      simp only [List.length_cons, List.length_append] at hlength ⊢
      omega
    rw [hwritten, Toml.value?, Toml.items?_textLines depth _ hfuel]
    rfl

theorem value?_writtenFlag (depth : Nat) (b : Bool) (rest : List Char) :
    Toml.value? depth (writtenFlag b ++ '\n' :: rest) = some (.boolean b, '\n' :: rest) := by
  cases b with
  | false => exact Toml.value?_eq_scalar? (by decide) depth
  | true => exact Toml.value?_eq_scalar? (by decide) depth

/-! ### Lines -/

/-- The lines of a settings file. -/
def lines (s : Settings) : List Toml.Line :=
  [⟨"version", Text.digits s.version.toNat, .integer s.version.toNat⟩,
    ⟨"ignore_patterns", writtenTexts s.ignorePatterns, .array (s.ignorePatterns.map .text)⟩,
    ⟨"scan_inline_ids", writtenFlag s.scanInlineIds, .boolean s.scanInlineIds⟩,
    ⟨"confirm_default", writtenFlag s.confirmDefault, .boolean s.confirmDefault⟩,
    ⟨"log_level", Toml.writtenText s.logLevel, .text s.logLevel⟩]

theorem toToml_eq (s : Settings) : s.toToml = String.ofList (s.lines.flatMap Toml.Line.text) := by
  simp [toToml, lines, line, Toml.Line.text]

theorem head_digits (n : Nat) : ∃ c ∈ (Text.digits n).head?, Toml.isBlank c = false := by
  cases hdigits : Text.digits n with
  | nil => exact absurd hdigits Nat.toDigits_ne_nil
  | cons c ds =>
    have hc : c.isDigit := Text.isDigit_of_mem_digits (hdigits ▸ List.mem_cons_self)
    refine ⟨c, rfl, ?_⟩
    rw [Toml.isBlank, Bool.or_eq_false_iff, decide_eq_false_iff_not, decide_eq_false_iff_not]
    constructor <;> (rintro rfl; contradiction)

theorem head_writtenText (s : String) : ∃ c ∈ (Toml.writtenText s).head?, Toml.isBlank c = false := by
  obtain ⟨mark, cs, hwritten, hmark⟩ := Toml.exists_writtenText s
  refine ⟨mark, by rw [hwritten]; rfl, ?_⟩
  obtain rfl | rfl := hmark <;> decide

theorem reads_of_mem_lines {s : Settings} : ∀ line ∈ s.lines, line.Reads := by
  have hversion : s.version.toNat < 2 ^ 63 := Nat.lt_trans s.version.toNat_lt (by decide)
  have htexts : ∃ c ∈ (writtenTexts s.ignorePatterns).head?, Toml.isBlank c = false := by
    match s.ignorePatterns with
    | [] => exact ⟨'[', rfl, rfl⟩
    | [_] => exact ⟨'[', rfl, rfl⟩
    | _ :: _ :: _ => exact ⟨'[', rfl, rfl⟩
  have hflag (b : Bool) : ∃ c ∈ (writtenFlag b).head?, Toml.isBlank c = false := by
    cases b with
    | false => exact ⟨'f', rfl, rfl⟩
    | true => exact ⟨'t', rfl, rfl⟩
  have hends (rest : List Char) : Toml.Ends ('\n' :: rest) := Toml.ends_cons (by decide) rest
  simp only [lines, List.forall_mem_cons]
  refine ⟨?_, ?_, ?_, ?_, ?_, List.forall_mem_nil _⟩
  · exact ⟨(by decide : Toml.IsKey "version"), head_digits _, fun rest => Toml.value?_digits _ rest hversion⟩
  · exact ⟨(by decide : Toml.IsKey "ignore_patterns"), htexts, value?_writtenTexts _ _⟩
  · exact ⟨(by decide : Toml.IsKey "scan_inline_ids"), hflag _, value?_writtenFlag _ _⟩
  · exact ⟨(by decide : Toml.IsKey "confirm_default"), hflag _, value?_writtenFlag _ _⟩
  · refine ⟨(by decide : Toml.IsKey "log_level"), head_writtenText _, fun rest => ?_⟩
    exact Toml.value?_writtenText _ _ (hends rest)

/-! ### Files -/

theorem texts?_map_text (ss : List String) : texts? (.array (ss.map .text)) = some ss := by
  rw [texts?]
  induction ss with
  | nil => rfl
  | cons s ss ih => simp [text?, ih]

theorem ofEntries?_lines (s : Settings) : ofEntries? (s.lines.map Toml.Line.entry) = some s := by
  have hversion : word? (.integer s.version.toNat) = some s.version := Text.word32?_eq_some_iff.mpr rfl
  have htexts := texts?_map_text s.ignorePatterns
  simp [ofEntries?, field?, lines, Toml.Line.entry, List.lookup, hversion, htexts, flag?, text?]

/-- Settings that were written are checked like any others, and pass as they were. -/
theorem ofToml_toToml (s : Settings) : ofToml s.toToml = s.validate := by
  have hnames : (s.lines.map Toml.Line.name).Nodup := by
    have hkeys : ["version", "ignore_patterns", "scan_inline_ids", "confirm_default", "log_level"].Nodup := by decide
    exact hkeys
  have hentries : Toml.entries? s.toToml = some (s.lines.map Toml.Line.entry) := by
    rw [toToml_eq]
    exact Toml.Line.entries?_flatMap reads_of_mem_lines hnames
  rw [ofToml, hentries, Option.bind_eq_bind, Option.bind_some, ofEntries?_lines]

/-- The check gives the settings themselves, or says what is wrong with them. -/
theorem validate_cases (s : Settings) : s.validate = .ok s ∨ ∃ problem, s.validate = .error (.settings problem) := by
  rw [validate]
  cases s.problem? with
  | none => exact .inl rfl
  | some problem => exact .inr ⟨problem, rfl⟩

theorem validate_of_ofToml {text : String} {s : Settings} (h : ofToml text = .ok s) : s.validate = .ok s := by
  rw [ofToml] at h
  split at h
  next => exact absurd h (by simp)
  next read _ =>
    obtain hvalid | ⟨problem, hinvalid⟩ := read.validate_cases
    · obtain rfl : read = s := Except.ok.inj (hvalid.symm.trans h)
      exact h
    · exact absurd (hinvalid.symm.trans h) (by simp)

/-! ### Saved files -/

/-- Settings can be saved at the root of an empty tree. -/
theorem save_empty (s : Settings) :
    s.save {} ⟨"settings.toml"⟩ = .ok ⟨[(["settings.toml"], .file s.toToml.toUTF8)], []⟩ := by
  have hparents : FileSystem.makeParents {} ⟨"settings.toml"⟩ = .ok {} := by
    have hparent : (⟨"settings.toml"⟩ : Path).parent? = some ⟨""⟩ := by decide
    have hmake : FileSystem.makeDirectoriesTo {} [] = .ok {} := by
      rw [FileSystem.makeDirectoriesTo]
      rfl
    rw [FileSystem.makeParents, hparent]
    exact hmake
  have hlocate : FileSystem.locate {} .write ⟨"settings.toml"⟩ = .ok ["settings.toml"] := by
    have hbytes : ¬FileSystem.nameLimit < "settings.toml".utf8ByteSize := by decide
    have hwalk :
        FileSystem.walk {} .write FileSystem.linkLimit [] [.child "settings.toml"] = .ok ["settings.toml"] := by
      simp [FileSystem.walk, FileSystem.node?, FileSystem.isDirectoryAt, Node.isDirectory, FileSystem.isSlashed, hbytes]
    exact hwalk
  have hdirectory : FileSystem.isDirectoryAt {} ["settings.toml"] = false := by decide
  have hwrite : FileSystem.writeText {} ⟨"settings.toml"⟩ s.toToml =
      .ok ⟨[(["settings.toml"], .file s.toToml.toUTF8)], []⟩ := by
    simp only [FileSystem.writeText, FileSystem.write, hlocate, bind, Except.bind, hdirectory]
    rfl
  simp only [save, hparents, mapError_ok, bind, Except.bind, hwrite]

/-- Settings that were saved are loaded as they were if they pass the check, and refused for what the check finds if
they do not. No text is read as settings that the check refuses. -/
theorem load_of_save :
    (∀ (s : Settings) (fs made : FileSystem) (p : Path), s.save fs p = .ok made →
      load made p = s.validate ∧ (load made p = .ok s ∨ ∃ problem, load made p = .error (.settings problem))) ∧
      ∀ (text : String) (s : Settings), ofToml text = .ok s → s.validate = .ok s := by
  refine ⟨fun s fs made p h => ?_, fun text s => validate_of_ofToml⟩
  obtain ⟨ready, -, h⟩ := bind_eq_ok h
  have hread : made.readText p = .ok s.toToml := FileSystem.readText_of_writeText (mapError_eq_ok h)
  have hload : load made p = s.validate := by
    rw [← ofToml_toToml]
    simp only [load, hread, mapError_ok, bind, Except.bind]
  exact ⟨hload, hload ▸ s.validate_cases⟩

/-- Texts that are written in each of the forms, one of them with escapes, and a blank level. -/
theorem load_of_save_texts :
    let s : Settings := { ignorePatterns := ["*~", "\"", "'\"", "\"\"\"'\n", "\x01\\"], logLevel := "debug\r\n" }
    let blank : Settings := { s with logLevel := "\t\n" }
    let p : Path := ⟨"settings.toml"⟩
    (∃ made, s.save {} p = .ok made ∧ load made p = .ok s) ∧
      (∃ made, blank.save {} p = .ok made ∧ load made p = .error (.settings "log_level must not be empty")) ∧
      ofToml s.toToml = .ok s ∧ s.validate = .ok s := by
  intro s blank p
  have hvalid : s.validate = .ok s := by
    have hproblem : s.problem? = none := by decide
    rw [validate, hproblem]
  have hblank : blank.validate = .error (.settings "log_level must not be empty") := by
    have hproblem : blank.problem? = some "log_level must not be empty" := by decide
    rw [validate, hproblem]
  have hread : ofToml s.toToml = .ok s := (ofToml_toToml s).trans hvalid
  refine ⟨⟨_, save_empty s, ?_⟩, ⟨_, save_empty blank, ?_⟩, hread, load_of_save.2 _ _ hread⟩
  · exact (load_of_save.1 s {} _ p (save_empty s)).1.trans hvalid
  · exact (load_of_save.1 blank {} _ p (save_empty blank)).1.trans hblank

end ResourceIndex.Settings
