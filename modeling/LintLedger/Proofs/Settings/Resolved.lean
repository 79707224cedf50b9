import Mathlib.Data.List.Basic
import LintLedger.Proofs.Disk.Writing
import LintLedger.Settings.Basic

/-!
# Where the settings come from

The configuration is the first of the files at the root that stands there. Either it cannot be read
or is invalid, and is as good as none, or every setting is what the file says under its own key. A
file behind the first has no say, and no file is asked elsewhere.
-/

namespace LintLedger

namespace Config

/-! ## Keys -/

inductive Key where
  | sourceDir
  | extension
  | macroName
  | readme
  | entry
  | marker
  | group
  | output
  deriving DecidableEq, Repr

def Key.text : Key → String
  | .sourceDir => "source_dir"
  | .extension => "extension"
  | .macroName => "macro"
  | .readme => "readme"
  | .entry => "entry"
  | .marker => "marker"
  | .group => "group"
  | .output => "output"

def value (c : Config) : Key → Option String
  | .sourceDir => c.sourceDir
  | .extension => c.extension
  | .macroName => c.macroName
  | .readme => c.readme
  | .entry => c.entry
  | .marker => c.marker
  | .group => c.group
  | .output => c.output

def ofValue (value : Key → Option String) : Config :=
  ⟨value .sourceDir, value .extension, value .macroName, value .readme, value .entry,
    value .marker, value .group, value .output⟩

theorem value_ofValue (value : Key → Option String) : (ofValue value).value = value := by
  funext key
  cases key <;> rfl

/-- What the entries of a TOML document say under a key. A value that is no text has no case. -/
inductive TomlSays (entries : Toml.Entries) (key : String) : Option String → Prop
  | nothing : (∀ entry ∈ entries, entry.1 ≠ key) → TomlSays entries key none
  | text {front back : Toml.Entries} {s : String} :
      entries = front ++ (key, .value (.text s)) :: back → (∀ entry ∈ front, entry.1 ≠ key) →
      TomlSays entries key (some s)

/-- What the fields of a YAML document say under a key. A value that is neither a text nor absent
has no case, nor has a key that is repeated. -/
inductive YamlSays (fields : List (String × Yaml.Value)) (key : String) : Option String → Prop
  | nothing : (∀ field ∈ fields, field.1 ≠ key) → YamlSays fields key none
  | absent {front back : List (String × Yaml.Value)} :
      fields = front ++ (key, .absent) :: back → (∀ field ∈ front ++ back, field.1 ≠ key) →
      YamlSays fields key none
  | text {front back : List (String × Yaml.Value)} {s : String} :
      fields = front ++ (key, .text s) :: back → (∀ field ∈ front ++ back, field.1 ≠ key) →
      YamlSays fields key (some s)

/-- Whether a text can be read, and has valid values under all keys, which are the given ones. -/
def Sets : Language → String → (Key → Option String) → Prop
  | .toml, text, value => ∃ entries, Toml.read text = some entries ∧
      ∀ key : Key, TomlSays entries key.text (value key)
  | .yaml, text, value => ∃ fields, Yaml.read text = some fields ∧
      ∀ key : Key, YamlSays fields key.text (value key)

/-! ## Values under a key -/

theorem tomlValue?_eq_some_iff {entries : Toml.Entries} {key : String} {value : Option String} :
    tomlValue? entries key = some value ↔ TomlSays entries key value := by
  constructor
  · intro h
    unfold tomlValue? at h
    split at h
    · next hnone =>
        obtain rfl := Option.some.inj h
        refine .nothing fun entry hentry => Ne.symm ?_
        exact bne_iff_ne.1 (List.lookup_eq_none_iff.1 hnone entry hentry)
    · next s hsome =>
        obtain rfl := Option.some.inj h
        obtain ⟨front, back, hentries, hfront⟩ := List.lookup_eq_some_iff.1 hsome
        refine .text hentries fun entry hentry => Ne.symm ?_
        exact bne_iff_ne.1 (hfront entry hentry)
    · cases h
  · intro h
    unfold tomlValue?
    cases h with
    | nothing hnone =>
        have hlookup : entries.lookup key = none :=
          List.lookup_eq_none_iff.2 fun entry hentry => bne_iff_ne.2 (hnone entry hentry).symm
        rw [hlookup]
    | @text front back s hentries hfront =>
        have hlookup : entries.lookup key = some (.value (.text s)) :=
          List.lookup_eq_some_iff.2 ⟨front, back, hentries, fun entry hentry =>
            bne_iff_ne.2 (hfront entry hentry).symm⟩
        rw [hlookup]

/-- The only field with a key is found where it stands. -/
theorem filter_key_eq_iff {fields : List (String × Yaml.Value)} {key : String} {v : Yaml.Value} :
    (∃ name, fields.filter (·.1 == key) = [(name, v)]) ↔
      ∃ front back, fields = front ++ (key, v) :: back ∧
        ∀ field ∈ front ++ back, field.1 ≠ key := by
  constructor
  · rintro ⟨name, h⟩
    obtain ⟨front, back, hfields, hfront, hname, hback⟩ := List.filter_eq_cons_iff.1 h
    obtain rfl : name = key := by simpa using hname
    refine ⟨front, back, hfields, fun field hfield => ?_⟩
    rw [List.filter_eq_nil_iff] at hback
    rcases List.mem_append.1 hfield with hmem | hmem
    · simpa using hfront field hmem
    · simpa using hback field hmem
  · rintro ⟨front, back, rfl, hothers⟩
    refine ⟨key, ?_⟩
    have hnone : ∀ part, part ⊆ front ++ back → part.filter (·.1 == key) = [] := by
      intro part hpart
      rw [List.filter_eq_nil_iff]
      exact fun field hfield => by simpa using hothers field (hpart hfield)
    rw [List.filter_append, List.filter_cons_of_pos (by simp),
      hnone front (List.subset_append_left front back),
      hnone back (List.subset_append_right front back), List.nil_append]

theorem yamlValue?_eq_some_iff {fields : List (String × Yaml.Value)} {key : String}
    {value : Option String} : yamlValue? fields key = some value ↔ YamlSays fields key value := by
  constructor
  · intro h
    unfold yamlValue? at h
    split at h
    · next hnone =>
        obtain rfl := Option.some.inj h
        rw [List.filter_eq_nil_iff] at hnone
        exact .nothing fun field hfield => by simpa using hnone field hfield
    · next name hone =>
        obtain rfl := Option.some.inj h
        obtain ⟨front, back, hfields, hothers⟩ := filter_key_eq_iff.1 ⟨name, hone⟩
        exact .absent hfields hothers
    · next name s hone =>
        obtain rfl := Option.some.inj h
        obtain ⟨front, back, hfields, hothers⟩ := filter_key_eq_iff.1 ⟨name, hone⟩
        exact .text hfields hothers
    · cases h
  · intro h
    unfold yamlValue?
    cases h with
    | nothing hnone =>
        have hfilter : fields.filter (·.1 == key) = [] := by
          rw [List.filter_eq_nil_iff]
          exact fun field hfield => by simpa using hnone field hfield
        rw [hfilter]
    | absent hfields hothers =>
        obtain ⟨name, hfilter⟩ := filter_key_eq_iff.2 ⟨_, _, hfields, hothers⟩
        rw [hfilter]
    | text hfields hothers =>
        obtain ⟨name, hfilter⟩ := filter_key_eq_iff.2 ⟨_, _, hfields, hothers⟩
        rw [hfilter]

/-! ## Configurations -/

variable {c : Config} {language : Language} {text : String}

theorem ofValues?_eq_some_iff {value? : String → Option (Option String)} :
    ofValues? value? = some c ↔ ∀ key : Key, value? key.text = some (c.value key) := by
  constructor
  · intro h key
    simp only [ofValues?, Option.bind_eq_bind, Option.bind_eq_some_iff, Option.pure_def,
      Option.some.injEq] at h
    obtain ⟨_, h₁, _, h₂, _, h₃, _, h₄, _, h₅, _, h₆, _, h₇, _, h₈, rfl⟩ := h
    cases key <;> assumption
  · intro h
    have h₁ := h .sourceDir
    have h₂ := h .extension
    have h₃ := h .macroName
    have h₄ := h .readme
    have h₅ := h .entry
    have h₆ := h .marker
    have h₇ := h .group
    have h₈ := h .output
    simp only [Key.text] at h₁ h₂ h₃ h₄ h₅ h₆ h₇ h₈
    simp only [ofValues?, h₁, h₂, h₃, h₄, h₅, h₆, h₇, h₈]
    rfl

theorem parse?_eq_some_iff : parse? language text = some c ↔ Sets language text c.value := by
  cases language with
  | toml =>
      simp only [parse?, Sets, Option.bind_eq_bind, Option.bind_eq_some_iff,
        ofValues?_eq_some_iff, tomlValue?_eq_some_iff]
  | yaml =>
      simp only [parse?, Sets, Option.bind_eq_bind, Option.bind_eq_some_iff,
        ofValues?_eq_some_iff, yamlValue?_eq_some_iff]

theorem parse?_of_sets {value : Key → Option String} (h : Sets language text value) :
    parse? language text = some (ofValue value) := by
  rw [parse?_eq_some_iff, value_ofValue]
  exact h

end Config

namespace Settings

open Config (Key)

variable {d d' : Disk} {root root' path : Path} {s : Settings} {name : String}
  {language : Config.Language} {given : Key → Option String} {output : Option String}

/-! ## Settings key by key -/

def value (s : Settings) : Key → String
  | .sourceDir => s.sourceDir
  | .extension => s.extension
  | .macroName => s.macroName
  | .readme => s.readme
  | .entry => s.entry
  | .marker => s.marker
  | .group => s.group
  | .output => s.output

def fallback : Key → String
  | .sourceDir => "src"
  | .extension => "rs"
  | .macroName => "declare_lint"
  | .readme => "README.md"
  | .entry => "src/lib.rs"
  | .marker => "src/lib.rs"
  | .group => "clippy"
  | .output => "human"

/-- What a text in the file means under its key. -/
def meant : Key → String → String
  | .extension, text => bareExtension text
  | _, text => text

theorem meant_eq (key : Key) : meant key = if key = .extension then bareExtension else id := by
  cases key <;> rfl

/-- What the command line says under a key, where only the output can be said. -/
def spoken (output : Option String) : Key → Option String
  | .output => output
  | _ => none

/-- Whether each setting is what the command line says, or else what is given under its own key, or
else what holds where nothing is said. -/
structure GoesBy (s : Settings) (output : Option String) (configured : Bool)
    (given : Key → Option String) : Prop where
  configured : s.configured = configured
  values : ∀ key, s.value key =
    (spoken output key <|> (given key).map (meant key)).getD (fallback key)

theorem goesBy_ofConfig (root : Path) (config : Option Config) (output : Option String) :
    (ofConfig root config output).GoesBy output config.isSome (config.getD .empty).value where
  configured := rfl
  values key := by
    rw [meant_eq]
    cases key <;> simp [value, ofConfig, spoken, fallback, Config.value, defaultMarker]

/-! ## The first file -/

/-- No configuration file stands at the root before the one of this name. -/
def Reached (d : Disk) (root : Path) (name : String) (language : Config.Language) : Prop :=
  ∃ front back, configFiles = front ++ (name, language) :: back ∧
    ∀ file ∈ front, ¬ d.exists? (root.join ⟨file.1⟩)

/-- Whether the first configuration file that stands at the root has this name. -/
def First (d : Disk) (root : Path) (name : String) (language : Config.Language) : Prop :=
  d.exists? (root.join ⟨name⟩) ∧ Reached d root name language

/-- Whether a file can be read and is valid, and what it then has under each key. -/
def FileSets (d : Disk) (path : Path) (language : Config.Language)
    (given : Key → Option String) : Prop :=
  ∃ text, d.readText path = .ok text ∧ Config.Sets language text given

theorem first_iff : First d root name language ↔
    configFiles.find? (fun file => d.exists? (root.join ⟨file.1⟩)) = some (name, language) := by
  rw [List.find?_eq_some_iff_append]
  simp [First, Reached]

theorem config_of_none (h : ∀ file ∈ configFiles, ¬ d.exists? (root.join ⟨file.1⟩)) :
    (loadConfig d root).config = none := by
  have hnone : configFiles.find? (fun file => d.exists? (root.join ⟨file.1⟩)) = none :=
    List.find?_eq_none.2 h
  unfold loadConfig
  rw [hnone]

theorem config_of_first (h : First d root name language) : (loadConfig d root).config =
    match d.readText (root.join ⟨name⟩) with
    | .error _ => none
    | .ok text => Config.parse? language text := by
  have hfirst := first_iff.1 h
  simp only [loadConfig, hfirst]
  cases d.readText (root.join ⟨name⟩) with
  | error fault => rfl
  | ok text => cases hparse : Config.parse? language text <;> simp only [hparse]

theorem config_of_fileSets (h : First d root name language)
    (hsets : FileSets d (root.join ⟨name⟩) language given) :
    (loadConfig d root).config = some (.ofValue given) := by
  obtain ⟨text, htext, hvalue⟩ := hsets
  rw [config_of_first h, htext]
  exact Config.parse?_of_sets hvalue

theorem config_of_not_fileSets (h : First d root name language)
    (hsets : ∀ given, ¬ FileSets d (root.join ⟨name⟩) language given) :
    (loadConfig d root).config = none := by
  rw [config_of_first h]
  cases htext : d.readText (root.join ⟨name⟩) with
  | error fault => rfl
  | ok text =>
      cases hparse : Config.parse? language text with
      | none => simp [hparse]
      | some c => exact (hsets c.value ⟨text, htext, Config.parse?_eq_some_iff.1 hparse⟩).elim

/-- A configuration is warned of where it stands at the root and is passed over. -/
theorem warnings_eq_nil_iff : (loadConfig d root).messages.filter (·.isLogged false) = [] ↔
    (loadConfig d root).config.isSome ∨
      ∀ file ∈ configFiles, ¬ d.exists? (root.join ⟨file.1⟩) := by
  cases hfirst : configFiles.find? fun file => d.exists? (root.join ⟨file.1⟩) with
  | none =>
      simp only [loadConfig, hfirst]
      exact iff_of_true rfl (.inr (List.find?_eq_none.1 hfirst))
  | some file =>
      obtain ⟨name, language⟩ := file
      have hstands : ¬ ∀ file ∈ configFiles, ¬ d.exists? (root.join ⟨file.1⟩) := by
        rw [← List.find?_eq_none, hfirst]
        exact Option.some_ne_none _
      rw [or_iff_left hstands]
      simp only [loadConfig, hfirst]
      cases htext : d.readText (root.join ⟨name⟩) with
      | error fault => simp [Message.isLogged]
      | ok text =>
          cases hparse : Config.parse? language text <;> simp [hparse, Message.isLogged]

/-! ## What has no say -/

theorem exists?_congr {p q : Path} (h : d'.lookup q = d.lookup p) : d'.exists? q = d.exists? p := by
  rw [Disk.exists?, Disk.exists?, h]

theorem readText_congr {p q : Path} (h : d'.lookup q = d.lookup p) :
    d'.readText q = d.readText p := by
  rw [Disk.readText, Disk.readText, h]

/-- The configuration is told by what stands at the root, up to the first file. -/
theorem config_congr (h : ∀ name language, Reached d root name language →
      d'.lookup (root'.join ⟨name⟩) = d.lookup (root.join ⟨name⟩)) :
    (loadConfig d' root').config = (loadConfig d root).config := by
  cases hfirst : configFiles.find? fun file => d.exists? (root.join ⟨file.1⟩) with
  | none =>
      have hnone := List.find?_eq_none.1 hfirst
      rw [config_of_none hnone]
      refine config_of_none fun file hfile => ?_
      obtain ⟨front, back, hsplit⟩ := List.append_of_mem hfile
      have hreached : Reached d root file.1 file.2 :=
        ⟨front, back, hsplit, fun other hother => hnone other (by simp [hsplit, hother])⟩
      rw [exists?_congr (h _ _ hreached)]
      exact hnone file hfile
  | some file =>
      obtain ⟨name, language⟩ := file
      have hhere : First d root name language := first_iff.2 hfirst
      have hsame := h name language hhere.2
      obtain ⟨hstands, front, back, hsplit, hfront⟩ := hhere
      have hthere : First d' root' name language := by
        refine ⟨by rw [exists?_congr hsame]; exact hstands, front, back, hsplit, ?_⟩
        intro file hfile
        obtain ⟨before, after, hcut⟩ := List.append_of_mem hfile
        have hreached : Reached d root file.1 file.2 :=
          ⟨before, after ++ (name, language) :: back, by simp [hsplit, hcut],
            fun other hother => hfront other (by simp [hcut, hother])⟩
        rw [exists?_congr (h _ _ hreached)]
        exact hfront file hfile
      rw [config_of_first hthere, config_of_first (first_iff.2 hfirst), readText_congr hsame]

theorem detectRoot_eq_of_sameShape (h : d.SameShape d') (cwd start : Path) (marker : String) :
    detectRoot d' cwd start marker = detectRoot d cwd start marker := by
  have hroots : isRoot d' marker = isRoot d marker := by
    funext p
    simp only [isRoot, h.exists?_eq, h.isFile_eq]
  rw [detectRoot, detectRoot, hroots]

/-! ## Resolution -/

theorem goesBy_of_config_none (h : (loadConfig d root).config = none) :
    (ofConfig root (loadConfig d root).config output).GoesBy output false fun _ => none := by
  have hempty : Config.empty.value = fun _ => none := by
    funext key
    cases key <;> rfl
  rw [h, ← hempty]
  exact goesBy_ofConfig root none output

theorem goesBy_of_config (h : (loadConfig d root).config = some (.ofValue given)) :
    (ofConfig root (loadConfig d root).config output).GoesBy output true given := by
  have hgoes := goesBy_ofConfig root (some (.ofValue given)) output
  rw [Option.getD_some, Config.value_ofValue] at hgoes
  rw [h]
  exact hgoes

theorem root_resolve (d : Disk) (cwd : Path) (repoRoot output : Option String) :
    (resolve d cwd repoRoot output).settings.root =
      detectRoot d cwd (startOf repoRoot) defaultMarker := by
  simp only [resolve, ofConfig]

theorem warnings_resolve_eq_nil_iff (d : Disk) (cwd : Path) (repoRoot output : Option String) :
    (resolve d cwd repoRoot output).messages.filter (·.isLogged false) = [] ↔
      (resolve d cwd repoRoot output).settings.configured = true ∨
        ∀ file ∈ configFiles,
          ¬ d.exists? ((resolve d cwd repoRoot output).settings.root.join ⟨file.1⟩) := by
  simp only [resolve, ofConfig]
  exact warnings_eq_nil_iff

/-- Settings with one configuration differ in their roots alone. -/
theorem ofConfig_at (root root' : Path) (config : Option Config) (output : Option String) :
    { ofConfig root config output with root := root' } = ofConfig root' config output :=
  rfl

theorem settings_resolve {cwd : Path} {repoRoot : Option String}
    (h : (resolve d cwd repoRoot output).settings = s) :
    s = ofConfig s.root (loadConfig d s.root).config output := by
  rw [← h, root_resolve]
  unfold resolve
  rfl

/-- The settings go by the first configuration file that stands at the root. Each is what the
command line says, where it says the output, or else what the file says under its own key, or else
what holds where nothing is said; and if there is no file, or the first cannot be read or is
invalid, then whatever a later one holds the settings go by none. Nothing has a say in them but what
stands at the root under the names up to the first file, and the root is the same whatever the files
hold and whatever the command line says of the output. -/
theorem resolve_first_file (d : Disk) (cwd : Path) (repoRoot output : Option String) :
    let root := detectRoot d cwd (startOf repoRoot) defaultMarker
    let s := (resolve d cwd repoRoot output).settings
    s.root = root ∧
      ((∀ file ∈ configFiles, ¬ d.exists? (root.join ⟨file.1⟩)) →
        s.GoesBy output false fun _ => none) ∧
      (∀ name language, First d root name language →
        (∀ given, FileSets d (root.join ⟨name⟩) language given → s.GoesBy output true given) ∧
        ((∀ given, ¬ FileSets d (root.join ⟨name⟩) language given) →
          s.GoesBy output false fun _ => none)) ∧
      (∀ d' cwd' repoRoot',
        let s' := (resolve d' cwd' repoRoot' output).settings
        (∀ name language, Reached d root name language →
          d'.lookup (s'.root.join ⟨name⟩) = d.lookup (root.join ⟨name⟩)) →
        s' = { s with root := s'.root }) ∧
      ∀ d' output', d.SameShape d' → (resolve d' cwd repoRoot output').settings.root = root := by
  intro root s
  have hroot : s.root = root := root_resolve d cwd repoRoot output
  have hs : s = ofConfig root (loadConfig d root).config output := by
    rw [← hroot]
    exact settings_resolve rfl
  refine ⟨hroot, ?_, ?_, ?_, ?_⟩
  · intro hnone
    rw [hs]
    exact goesBy_of_config_none (config_of_none hnone)
  · intro name language hfirst
    rw [hs]
    constructor
    · intro given hsets
      exact goesBy_of_config (config_of_fileSets hfirst hsets)
    · intro hsets
      exact goesBy_of_config_none (config_of_not_fileSets hfirst hsets)
  · intro d' cwd' repoRoot' s' hsame
    have hs' : s' = ofConfig s'.root (loadConfig d' s'.root).config output := settings_resolve rfl
    rw [config_congr hsame] at hs'
    rw [hs, ofConfig_at]
    exact hs'
  · intro d' output' hshape
    rw [root_resolve]
    exact detectRoot_eq_of_sameShape hshape cwd (startOf repoRoot) defaultMarker

private theorem fileSets_of_parse? {text : String} {c : Config} (htext : d.readText path = .ok text)
    (hparse : Config.parse? language text = some c) : FileSets d path language c.value :=
  ⟨text, htext, Config.parse?_eq_some_iff.1 hparse⟩

/-- A checkout with a configuration in front of one that says something else. -/
def takenDisk : Disk :=
  ⟨[(["p"], .directory),
    (["p", "lintsync.toml"],
      .file "extension = \"..md\"\nmacro = \"m\"\noutput = \"json\"\n".toUTF8),
    (["p", "lintsync.yaml"], .file "extension: rs\nreadme: R.md\n".toUTF8)]⟩

/-- A checkout with a configuration that mentions a key without a value. -/
def emptiedDisk : Disk :=
  ⟨[(["p"], .directory),
    (["p", "lintsync.yml"], .file "extension: .x\ngroup:\nreadme: R.md\noutput: json\n".toUTF8)]⟩

/-- A checkout with an invalid configuration in front of a valid one. -/
def shadowedDisk : Disk :=
  ⟨[(["p"], .directory), (["p", "lintsync.toml"], .file "macro = \"m\"\ngroup = 3\n".toUTF8),
    (["p", "lintsync.yaml"], .file "group: a".toUTF8)]⟩

theorem resolve_first_file_shadowed :
    let taken := (resolve takenDisk ⟨"/p"⟩ none (some "human")).settings
    let emptied := (resolve emptiedDisk ⟨"/p"⟩ none none).settings
    (taken.configured = true ∧ taken.extension = "md" ∧ taken.macroName = "m" ∧
        taken.readme = "README.md" ∧ taken.output = "human") ∧
      (emptied.configured = true ∧ emptied.extension = "x" ∧ emptied.group = "clippy" ∧
        emptied.readme = "R.md" ∧ emptied.output = "json") ∧
      FileSets shadowedDisk ⟨"/p/lintsync.yaml"⟩ .yaml
        (fun key => if key = .group then some "a" else none) ∧
      (resolve shadowedDisk ⟨"/p"⟩ none (some "json")).settings.GoesBy (some "json") false
        fun _ => none := by
  intro taken emptied
  have hroots : detectRoot takenDisk ⟨"/p"⟩ (startOf none) defaultMarker = ⟨"/p"⟩ ∧
      detectRoot emptiedDisk ⟨"/p"⟩ (startOf none) defaultMarker = ⟨"/p"⟩ ∧
      detectRoot shadowedDisk ⟨"/p"⟩ (startOf none) defaultMarker = ⟨"/p"⟩ := by
    decide +kernel
  have htexts : takenDisk.readText ((⟨"/p"⟩ : Path).join ⟨"lintsync.toml"⟩) =
        .ok "extension = \"..md\"\nmacro = \"m\"\noutput = \"json\"\n" ∧
      emptiedDisk.readText ((⟨"/p"⟩ : Path).join ⟨"lintsync.yml"⟩) =
        .ok "extension: .x\ngroup:\nreadme: R.md\noutput: json\n" ∧
      shadowedDisk.readText ((⟨"/p"⟩ : Path).join ⟨"lintsync.toml"⟩) =
        .ok "macro = \"m\"\ngroup = 3\n" ∧
      shadowedDisk.readText ⟨"/p/lintsync.yaml"⟩ = .ok "group: a" := by
    decide +kernel
  have htoml : Config.parse? .toml "extension = \"..md\"\nmacro = \"m\"\noutput = \"json\"\n" =
      some { Config.empty with extension := "..md", macroName := "m", output := "json" } := by
    decide +kernel
  have hyml : Config.parse? .yaml "extension: .x\ngroup:\nreadme: R.md\noutput: json\n" =
      some { Config.empty with extension := ".x", readme := "R.md", output := "json" } := by
    decide +kernel
  have hinvalid : Config.parse? .toml "macro = \"m\"\ngroup = 3\n" = none := by decide +kernel
  have hyaml : Config.parse? .yaml "group: a" =
      some (.ofValue fun key => if key = .group then some "a" else none) := by
    decide +kernel
  refine ⟨?_, ?_, ?_, ?_⟩
  · obtain ⟨-, -, hfile, -, -⟩ := resolve_first_file takenDisk ⟨"/p"⟩ none (some "human")
    rw [hroots.1] at hfile
    have hfirst : First takenDisk ⟨"/p"⟩ "lintsync.toml" .toml :=
      ⟨by decide +kernel, [], _, rfl, by simp⟩
    have hgoes := (hfile _ _ hfirst).1 _ (fileSets_of_parse? htexts.1 htoml)
    exact ⟨hgoes.configured, hgoes.values .extension, hgoes.values .macroName,
      hgoes.values .readme, hgoes.values .output⟩
  · obtain ⟨-, -, hfile, -, -⟩ := resolve_first_file emptiedDisk ⟨"/p"⟩ none none
    rw [hroots.2.1] at hfile
    have hfirst : First emptiedDisk ⟨"/p"⟩ "lintsync.yml" .yaml := by
      refine ⟨by decide +kernel, configFiles.take 2, [], rfl, ?_⟩
      decide +kernel
    have hgoes := (hfile _ _ hfirst).1 _ (fileSets_of_parse? htexts.2.1 hyml)
    exact ⟨hgoes.configured, hgoes.values .extension, hgoes.values .group,
      hgoes.values .readme, hgoes.values .output⟩
  · rw [← Config.value_ofValue fun key : Key => if key = .group then some "a" else none]
    exact fileSets_of_parse? htexts.2.2.2 hyaml
  · obtain ⟨-, -, hfile, -, -⟩ := resolve_first_file shadowedDisk ⟨"/p"⟩ none (some "json")
    rw [hroots.2.2] at hfile
    have hfirst : First shadowedDisk ⟨"/p"⟩ "lintsync.toml" .toml :=
      ⟨by decide +kernel, [], _, rfl, by simp⟩
    refine (hfile _ _ hfirst).2 ?_
    rintro given ⟨text, htext, hsets⟩
    rw [htexts.2.2.1] at htext
    have hparse := Config.parse?_of_sets hsets
    rw [← Except.ok.inj htext, hinvalid] at hparse
    cases hparse

end Settings

end LintLedger
