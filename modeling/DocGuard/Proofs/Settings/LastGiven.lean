import DocGuard.Engine.Path
import DocGuard.Proofs.Settings.Functionality
import DocGuard.Request.Steps

/-! What an engine is told is what was configured last. Of the changes of one kind the last one counts,
for filters all of them do, and changes of different kinds do not meet, so that their order among each
other does not tell. The policy file is read before the modes of decryption are looked at. -/
namespace DocGuard

namespace Text

private theorem ofUtf8?_eq_some_iff {bytes : List UInt8} {text : String} :
    ofUtf8? bytes = some text ↔ bytes = toUtf8 text := by
  have encoded : (toUtf8 text).toByteArray = text.toByteArray := String.utf8Encode_toList
  have spelled : bytes = toUtf8 text ↔ bytes.toByteArray = text.toByteArray := by
    rw [← encoded]
    simp [ByteArray.ext_iff]
  rw [spelled]
  unfold ofUtf8? String.fromUTF8?
  split
  case isTrue valid =>
    rw [Option.some.injEq, ← String.toByteArray_inj]
    rfl
  case isFalse invalid =>
    refine iff_of_false nofun fun same => invalid ?_
    rw [same]
    exact text.isValidUTF8

end Text

namespace Program

/-- Where a file was read, it was read as `files` tells. -/
def ReadsAs (files : String → Except FileError (List UInt8)) (events : List Event) : Prop :=
  ∀ place answer, ⟨.readFile place, answer⟩ ∈ events → answer = files place

private theorem exists_path_readsAs {α : Type} (files : String → Except FileError (List UInt8))
    (program : Program α) : ∃ events value, Path program events value ∧ ReadsAs files events := by
  let reply : (q : Question) → q.Answer := fun
    | .readFile place => files place
    | .call _ => none
    | .fileExists _ => false
    | .clock => ⟨0⟩
    | .log _ => ()
  induction program with
  | done value => exact ⟨[], value, .done value, by simp [ReadsAs]⟩
  | ask q next ih =>
    obtain ⟨events, value, path, reads⟩ := ih (reply q)
    refine ⟨⟨q, reply q⟩ :: events, value, .ask q next _ events value path, ?_⟩
    intro place answer mem
    rcases List.mem_cons.1 mem with same | mem
    · cases same
      rfl
    · exact reads place answer mem

end Program

namespace EngineConfig
open LabelFilter Program

/-- What a change is about. -/
inductive Change.Kind where
  | endpoints
  | locale
  | protectionOnly
  | policyFile
  | enableMsg
  | enablePowerBi
  | keepPdfLinearization
  | decryptTopOnly
  | decryptAll
  | enable
  | disable
  deriving DecidableEq

namespace Change

def kind : Change → Kind
  | endpoints .. => .endpoints
  | locale _ => .locale
  | protectionOnly _ => .protectionOnly
  | policyFile _ => .policyFile
  | enableMsg _ => .enableMsg
  | enablePowerBi _ => .enablePowerBi
  | keepPdfLinearization _ => .keepPdfLinearization
  | decryptTopOnly _ => .decryptTopOnly
  | decryptAll _ => .decryptAll
  | enable _ => .enable
  | disable _ => .disable

/-- What a change gives that switches something on or off. -/
def on? : Change → Option Bool
  | protectionOnly on | enableMsg on | enablePowerBi on | keepPdfLinearization on
  | decryptTopOnly on | decryptAll on => some on
  | _ => none

/-- What a change gives that names one thing. -/
def text? : Change → Option String
  | locale text | policyFile text => some text
  | _ => none

/-- The cloud that a change gives; without both of its endpoints it is the commercial one. -/
def cloud? : Change → Option Cloud
  | endpoints protectionUrl policyUrl =>
    some (if protectionUrl.isEmpty || policyUrl.isEmpty then .commercial
      else .custom protectionUrl policyUrl)
  | _ => none

def filters : Change → List LabelFilter
  | enable names | disable names => (parseList names).toOption.getD []
  | _ => []

end Change

/-- The changes of one kind, in order. -/
def ofKind (changes : List Change) (kind : Change.Kind) : List Change :=
  changes.filter (·.kind = kind)

/-- A change is the last one of its kind. -/
def Last (changes : List Change) (change : Change) : Prop :=
  (ofKind changes change.kind).getLast? = some change

/-- What the last of some changes gives. -/
def given {α : Type} (read : Change → Option α) (changes : List Change) : Option α :=
  changes.getLast?.bind read

/-- The configuration that is made from the changes of each kind alone. -/
def assemble (of : Change.Kind → List Change) : EngineConfig where
  cloud := (given Change.cloud? (of .endpoints)).getD .commercial
  locale := (given Change.text? (of .locale)).getD "en-US"
  protectionOnly := (given Change.on? (of .protectionOnly)).getD true
  policyFile := given Change.text? (of .policyFile)
  enableMsg := (given Change.on? (of .enableMsg)).getD false
  enablePowerBi := (given Change.on? (of .enablePowerBi)).getD false
  keepPdfLinearization := (given Change.on? (of .keepPdfLinearization)).getD false
  decryptTopOnly := (given Change.on? (of .decryptTopOnly)).getD false
  decryptAll := (given Change.on? (of .decryptAll)).getD false
  enabled := (of .enable).flatMap Change.filters
  disabled := (of .disable).flatMap Change.filters

section Kinds
variable {changes others : List Change} {change : Change} {c last : EngineConfig}

private theorem ofKind_snoc (kind : Change.Kind) : ofKind (changes ++ [change]) kind =
    if change.kind = kind then ofKind changes kind ++ [change] else ofKind changes kind := by
  unfold ofKind
  rw [List.filter_append]
  split
  case isTrue same => simp [same]
  case isFalse other => simp [other]

private theorem given_snoc {α : Type} (read : Change → Option α) :
    given read (changes ++ [change]) = read change := by
  simp [given]

private theorem applyAll_snoc (c : EngineConfig) : c.applyAll (changes ++ [change]) =
    c.applyAll changes >>= fun middle => middle.apply change := by
  simp [applyAll]

private theorem eq_assemble_of_applyAll (made : applyAll {} changes = .ok c) :
    c = assemble (ofKind changes) := by
  induction changes using List.reverseRecOn generalizing c with
  | nil =>
    cases made
    rfl
  | append_singleton changes change ih =>
    rw [applyAll_snoc] at made
    obtain ⟨middle, earlier, taken⟩ := bind_eq_ok_iff.1 made
    obtain rfl := ih earlier
    cases change with
    | enable names =>
      obtain ⟨filters, read, added⟩ := bind_eq_ok_iff.1 taken
      cases added
      simp [assemble, ofKind_snoc, Change.kind, Change.filters, read, Except.toOption]
    | disable names =>
      obtain ⟨filters, read, added⟩ := bind_eq_ok_iff.1 taken
      cases added
      simp [assemble, ofKind_snoc, Change.kind, Change.filters, read, Except.toOption]
    | _ =>
      cases taken
      simp [assemble, ofKind_snoc, given_snoc, Change.kind, Change.on?, Change.text?, Change.cloud?]

private theorem mem_of_ofKind (same : ∀ kind, ofKind others kind = ofKind changes kind)
    (mem : change ∈ others) : change ∈ changes := by
  have among : change ∈ ofKind others change.kind := List.mem_filter.2 ⟨mem, by simp⟩
  rw [same] at among
  exact (List.mem_filter.1 among).1

private theorem exists_of_names (made : applyAll {} changes = .ok c) (mem : change ∈ changes) :
    ∀ entry ∈ change.enables ++ change.disables, ∃ f : LabelFilter, f.name = entry := by
  obtain ⟨on, off⟩ := names_of_applyAll made
  intro entry listed
  have all : entry ∈ (c.enabled ++ c.disabled).map LabelFilter.name := by
    rw [List.map_append, on, off]
    rcases List.mem_append.1 listed with listed | listed
    · exact List.mem_append_left _ (List.mem_flatMap.2 ⟨change, mem, listed⟩)
    · exact List.mem_append_right _ (List.mem_flatMap.2 ⟨change, mem, listed⟩)
  obtain ⟨f, -, same⟩ := List.mem_map.1 all
  exact ⟨f, same⟩

private theorem applyAll_of_ofKind (made : applyAll {} changes = .ok c)
    (same : ∀ kind, ofKind others kind = ofKind changes kind) : applyAll {} others = .ok c := by
  have known : ∀ entry ∈ enabledNames others ++ disabledNames others,
      ∃ f : LabelFilter, f.name = entry := by
    intro entry mem
    rcases List.mem_append.1 mem with mem | mem
    · obtain ⟨change, among, listed⟩ := List.mem_flatMap.1 mem
      exact exists_of_names made (mem_of_ofKind same among) entry (List.mem_append_left _ listed)
    · obtain ⟨change, among, listed⟩ := List.mem_flatMap.1 mem
      exact exists_of_names made (mem_of_ofKind same among) entry (List.mem_append_right _ listed)
  obtain ⟨last, taken⟩ := exists_applyAll {} known
  rw [taken, eq_assemble_of_applyAll taken, eq_assemble_of_applyAll made, funext same]

end Kinds

section Fields
variable {changes : List Change} {one two change : Change} {α : Type} {read : Change → Option α}
  {value : α}

private theorem eq_of_on? {on : Bool} (same : one.kind = two.kind) (h : one.on? = some on)
    (g : two.on? = some on) : one = two := by
  cases one <;> cases two <;> simp_all [Change.kind, Change.on?]

private theorem eq_of_text? {text : String} (same : one.kind = two.kind) (h : one.text? = some text)
    (g : two.text? = some text) : one = two := by
  cases one <;> cases two <;> simp_all [Change.kind, Change.text?]

private theorem kind_of_getLast? {kind : Change.Kind}
    (h : (ofKind changes kind).getLast? = some change) :
    change.kind = kind := by
  simpa using (List.mem_filter.1 (List.mem_of_getLast? h)).2

private theorem given_eq_some_iff (gives : read change = some value)
    (tells : ∀ other, other.kind = change.kind → read other = some value → other = change) :
    given read (ofKind changes change.kind) = some value ↔ Last changes change := by
  unfold given
  rw [Option.bind_eq_some_iff]
  constructor
  · rintro ⟨other, last, same⟩
    obtain rfl := tells other (kind_of_getLast? last) same
    exact last
  · intro last
    exact ⟨change, last, gives⟩

private theorem flag_iff (change : Change) (gives : change.on? = some true) :
    (given Change.on? (ofKind changes change.kind)).getD false = true ↔ Last changes change := by
  rw [← given_eq_some_iff gives fun other same on => eq_of_on? same on gives]
  cases given Change.on? (ofKind changes change.kind) <;> simp

private theorem policyFile_iff {path : String} :
    (assemble (ofKind changes)).policyFile = some path ↔ Last changes (.policyFile path) := by
  have gives : (Change.policyFile path).text? = some path := rfl
  exact given_eq_some_iff gives fun other same text => eq_of_text? same text gives

private theorem Last.policyFile_unique {path path' : String} (h : Last changes (.policyFile path))
    (g : Last changes (.policyFile path')) : path = path' :=
  Option.some.inj ((policyFile_iff.2 h).symm.trans (policyFile_iff.2 g))

private theorem cloud_iff {protectionUrl policyUrl : String} :
    (assemble (ofKind changes)).cloud = .custom protectionUrl policyUrl ↔
      Last changes (.endpoints protectionUrl policyUrl) ∧ protectionUrl ≠ "" ∧ policyUrl ≠ "" := by
  unfold assemble Last given
  dsimp only [Change.kind]
  cases found : (ofKind changes .endpoints).getLast? with
  | none => simp
  | some change =>
    obtain ⟨url, url', rfl⟩ : ∃ url url', change = .endpoints url url' := by
      have kind := kind_of_getLast? found
      cases change <;> cases kind
      exact ⟨_, _, rfl⟩
    by_cases missing : url = "" ∨ url' = ""
    · have empty : (url.isEmpty || url'.isEmpty) = true := by simpa using missing
      simp only [Option.bind_some, Change.cloud?, empty, if_true, Option.getD_some,
        Option.some.injEq, Change.endpoints.injEq]
      refine iff_of_false nofun ?_
      rintro ⟨⟨rfl, rfl⟩, filled⟩
      exact missing.elim filled.1 filled.2
    · have filled : (url.isEmpty || url'.isEmpty) = false := by simpa using missing
      simp only [Option.bind_some, Change.cloud?, filled, Bool.false_eq_true, if_false,
        Option.getD_some, Cloud.custom.injEq, Option.some.injEq, Change.endpoints.injEq]
      constructor
      · rintro ⟨rfl, rfl⟩
        exact ⟨⟨rfl, rfl⟩, not_or.1 missing⟩
      · exact And.left

end Fields

/-- Why a file gives no text: it cannot be read, or its bytes spell none. -/
inductive Textless : Except FileError (List UInt8) → FileError → Prop where
  | unreadable (cause : FileError) : Textless (.error cause) cause
  | notUtf8 (bytes : List UInt8) : (∀ text, bytes ≠ Text.toUtf8 text) →
      Textless (.ok bytes) .notUtf8

/-- The custom settings that some changes ask for, where `files` tells what is read at each path. -/
inductive Asked (changes : List Change) (files : String → Except FileError (List UInt8)) :
    String → String → Prop where
  | policyData (path text : String) : Last changes (.policyFile path) →
      files path = .ok (Text.toUtf8 text) → Asked changes files "policy_data" text
  | msg : Last changes (.enableMsg true) → Asked changes files "enable_msg_file_type" "true"
  | powerBi : Last changes (.enablePowerBi true) →
      Asked changes files "enable_power_bi_file_type" "true"
  | linearization : Last changes (.keepPdfLinearization true) →
      Asked changes files "keep_pdf_linearization" "true"
  | top : Last changes (.decryptTopOnly true) → ¬ Last changes (.decryptAll true) →
      Asked changes files "container_decryption_option" "Top"
  | all : Last changes (.decryptAll true) → ¬ Last changes (.decryptTopOnly true) →
      Asked changes files "container_decryption_option" "All"

/-- What comes of the settings of an engine after some changes. They are refused for the last policy
file, and else for both modes of decryption; settings that are not refused hold what was asked for last
and nothing else. -/
structure Told (changes : List Change) (auth : AuthContext)
    (files : String → Except FileError (List UInt8)) (result : Except Error EngineSettings) :
    Prop where
  refused : ∀ e, result = .error e ↔
    (∃ path cause, Last changes (.policyFile path) ∧ Textless (files path) cause ∧
      e = .invalidArgument (.unreadablePolicyFile path cause)) ∨
    (∀ path, Last changes (.policyFile path) → ∃ text, files path = .ok (Text.toUtf8 text)) ∧
      Last changes (.decryptTopOnly true) ∧ Last changes (.decryptAll true) ∧
      e = .invalidArgument .bothDecryptionModes
  once : ∀ settings, result = .ok settings →
    (settings.customSettings.map Prod.fst).Pairwise (· < ·)
  custom : ∀ settings, result = .ok settings → ∀ key value,
    (key, value) ∈ settings.customSettings ↔ Asked changes files key value
  cloud : ∀ settings, result = .ok settings → ∀ protectionUrl policyUrl,
    settings.cloud = .custom protectionUrl policyUrl ↔
      Last changes (.endpoints protectionUrl policyUrl) ∧ protectionUrl ≠ "" ∧ policyUrl ≠ ""
  authenticated : ∀ settings, result = .ok settings →
    settings.identity = auth.identity ∧ settings.auth = auth

section Settings
variable {c : EngineConfig} {policy : Option String} {auth : AuthContext} {settings : EngineSettings}
  {events : List Event} {result : Except Error EngineSettings}
  {files : String → Except FileError (List UInt8)}

private theorem settings_eq_error_iff {e : Error} : c.settings policy auth = .error e ↔
    c.decryptTopOnly = true ∧ c.decryptAll = true ∧ e = .invalidArgument .bothDecryptionModes := by
  unfold EngineConfig.settings
  rw [bind_eq_error_iff]
  constructor
  · rintro (refused | ⟨mode, -, built⟩)
    · unfold containerDecryption at refused
      split at refused <;> cases refused
      exact ⟨‹_›, ‹_›, rfl⟩
    · cases built
  · rintro ⟨top, all, rfl⟩
    left
    simp only [containerDecryption, top, all]

private theorem customSettings_ascending (h : c.settings policy auth = .ok settings) :
    (settings.customSettings.map Prod.fst).Pairwise (· < ·) := by
  obtain ⟨mode, -, built⟩ := bind_eq_ok_iff.1 h
  cases built
  -- The entries that are left out leave the others in the order of all.
  have flag (key : String) (on : Bool) : ((flagEntry key on).map Prod.fst).Sublist [key] := by
    cases on <;> simp [flagEntry]
  have entry {β : Type} (key : String) (text : β → String) (value : Option β) :
      ((value.map fun v => (key, text v)).toList.map Prod.fst).Sublist [key] := by
    cases value <;> simp
  have all : ["container_decryption_option", "enable_msg_file_type", "enable_power_bi_file_type",
      "keep_pdf_linearization", "policy_data"].Pairwise (· < ·) := by
    decide
  refine List.Pairwise.sublist ?_ all
  simp only [List.map_append]
  exact ((((entry _ ContainerDecryption.name mode).append (flag _ _)).append (flag _ _)).append
    (flag _ _)).append (entry _ id policy)

private theorem mem_flagEntry {name key value : String} {on : Bool} :
    (key, value) ∈ flagEntry name on ↔ on = true ∧ key = name ∧ value = "true" := by
  cases on <;> simp [flagEntry]

private theorem containerDecryption_eq_some_iff {mode : ContainerDecryption} :
    c.containerDecryption = .ok (some mode) ↔
      mode = .top ∧ c.decryptTopOnly = true ∧ ¬ c.decryptAll = true ∨
      mode = .all ∧ c.decryptAll = true ∧ ¬ c.decryptTopOnly = true := by
  unfold containerDecryption
  cases mode <;> cases c.decryptTopOnly <;> cases c.decryptAll <;> simp

private theorem mem_customSettings {key value : String}
    (h : c.settings policy auth = .ok settings) :
    (key, value) ∈ settings.customSettings ↔
      (∃ mode, c.containerDecryption = .ok (some mode) ∧ key = "container_decryption_option" ∧
        value = mode.name) ∨
      (c.enableMsg = true ∧ key = "enable_msg_file_type" ∧ value = "true") ∨
      (c.enablePowerBi = true ∧ key = "enable_power_bi_file_type" ∧ value = "true") ∨
      (c.keepPdfLinearization = true ∧ key = "keep_pdf_linearization" ∧ value = "true") ∨
      policy = some value ∧ key = "policy_data" := by
  obtain ⟨mode, decryption, built⟩ := bind_eq_ok_iff.1 h
  cases built
  have decrypts : (key, value) ∈
      (mode.map fun mode => ("container_decryption_option", mode.name)).toList ↔
        ∃ mode, c.containerDecryption = .ok (some mode) ∧ key = "container_decryption_option" ∧
          value = mode.name := by
    rw [decryption]
    cases mode <;> simp
  have policyData : (key, value) ∈ (policy.map fun text => ("policy_data", text)).toList ↔
      policy = some value ∧ key = "policy_data" := by
    cases policy <;> simp [and_comm, eq_comm]
  simp only [List.mem_append, mem_flagEntry, decrypts, policyData, or_assoc]

theorem Textless.unique {answer : Except FileError (List UInt8)} {one two : FileError}
    (h : Textless answer one) (g : Textless answer two) : one = two := by
  cases h <;> cases g <;> rfl

private theorem not_textless {text : String} {cause : FileError} :
    ¬ Textless (.ok (Text.toUtf8 text)) cause := by
  intro h
  cases h with
  | notUtf8 _ none => exact none text rfl

/-- Settings with the text of the last policy file, if one was given. -/
theorem told_of_settings {changes : List Change}
    (read : ∀ text, policy = some text ↔
      ∃ path, Last changes (.policyFile path) ∧ files path = .ok (Text.toUtf8 text))
    (readable : ∀ path, Last changes (.policyFile path) →
      ∃ text, files path = .ok (Text.toUtf8 text)) :
    Told changes auth files ((assemble (ofKind changes)).settings policy auth) := by
  have msg : (assemble (ofKind changes)).enableMsg = true ↔ Last changes (.enableMsg true) :=
    flag_iff (.enableMsg true) rfl
  have powerBi : (assemble (ofKind changes)).enablePowerBi = true ↔
      Last changes (.enablePowerBi true) := flag_iff (.enablePowerBi true) rfl
  have linearization : (assemble (ofKind changes)).keepPdfLinearization = true ↔
      Last changes (.keepPdfLinearization true) := flag_iff (.keepPdfLinearization true) rfl
  have top : (assemble (ofKind changes)).decryptTopOnly = true ↔
      Last changes (.decryptTopOnly true) := flag_iff (.decryptTopOnly true) rfl
  have all : (assemble (ofKind changes)).decryptAll = true ↔ Last changes (.decryptAll true) :=
    flag_iff (.decryptAll true) rfl
  constructor
  · intro e
    rw [settings_eq_error_iff, top, all]
    constructor
    · exact fun both => .inr ⟨readable, both⟩
    · rintro (⟨path, cause, last, textless, -⟩ | ⟨-, both⟩)
      · obtain ⟨text, same⟩ := readable path last
        rw [same] at textless
        exact absurd textless not_textless
      · exact both
  · exact fun settings => customSettings_ascending
  · intro settings built key value
    rw [mem_customSettings built, msg, powerBi, linearization, read]
    simp only [containerDecryption_eq_some_iff, top, all]
    constructor
    · rintro (⟨mode, ⟨rfl, on, off⟩ | ⟨rfl, on, off⟩, rfl, rfl⟩ | ⟨last, rfl, rfl⟩ | ⟨last, rfl, rfl⟩ |
        ⟨last, rfl, rfl⟩ | ⟨⟨path, last, held⟩, rfl⟩)
      · exact .top on off
      · exact .all on off
      · exact .msg last
      · exact .powerBi last
      · exact .linearization last
      · exact .policyData path value last held
    · rintro (⟨path, text, last, held⟩ | last | last | last | ⟨on, off⟩ | ⟨on, off⟩)
      · exact .inr (.inr (.inr (.inr ⟨⟨path, last, held⟩, rfl⟩)))
      · exact .inr (.inl ⟨last, rfl, rfl⟩)
      · exact .inr (.inr (.inl ⟨last, rfl, rfl⟩))
      · exact .inr (.inr (.inr (.inl ⟨last, rfl, rfl⟩)))
      · exact .inl ⟨.top, .inl ⟨rfl, on, off⟩, rfl, rfl⟩
      · exact .inl ⟨.all, .inr ⟨rfl, on, off⟩, rfl, rfl⟩
  · intro settings built protectionUrl policyUrl
    rw [← cloud_iff]
    obtain ⟨mode, -, same⟩ := bind_eq_ok_iff.1 built
    cases same
    rfl
  · intro settings built
    obtain ⟨mode, -, same⟩ := bind_eq_ok_iff.1 built
    cases same
    exact ⟨rfl, rfl⟩

private theorem told_of_textless {changes : List Change} {place : String} {cause : FileError}
    (named : Last changes (.policyFile place)) (textless : Textless (files place) cause) :
    Told changes auth files (.error (.invalidArgument (.unreadablePolicyFile place cause))) := by
  constructor
  · intro e
    constructor
    · rintro ⟨⟩
      exact .inl ⟨place, cause, named, textless, rfl⟩
    · rintro (⟨other, cause', also, textless', rfl⟩ | ⟨readable, -⟩)
      · obtain rfl := named.policyFile_unique also
        rw [textless.unique textless']
      · obtain ⟨text, held⟩ := readable place named
        rw [held] at textless
        exact absurd textless not_textless
  · exact nofun
  · exact nofun
  · exact nofun
  · exact nofun

/-- What a program for the settings comes to, if its look at the policy file is answered by `files`. -/
theorem told_of_path {changes : List Change}
    (path : Path ((assemble (ofKind changes)).readSettings auth) events result)
    (reads : ReadsAs files events) : Told changes auth files result := by
  obtain ⟨before, after, policy, rfl, read, last⟩ := Path.bind_iff.1 path
  unfold readPolicy at read
  cases found : (assemble (ofKind changes)).policyFile with
  | none =>
    have never : ∀ place, ¬ Last changes (.policyFile place) := by
      intro place named
      cases found.symm.trans (policyFile_iff.2 named)
    rw [found] at read
    obtain ⟨rfl, rfl⟩ := Path.done_iff.1 read
    obtain ⟨rfl, rfl⟩ := Path.done_iff.1 last
    refine told_of_settings (fun text => iff_of_false nofun ?_) fun place named =>
      absurd named (never place)
    rintro ⟨place, named, -⟩
    exact never place named
  | some place =>
    have named : Last changes (.policyFile place) := policyFile_iff.1 found
    rw [found] at read
    obtain ⟨answer, rest, rfl, ended⟩ := Path.ask_iff.1 read
    obtain rfl : answer = files place := reads place answer (by simp)
    cases held : files place with
    | error cause =>
      rw [held] at ended
      obtain ⟨rfl, rfl⟩ := Path.done_iff.1 ended
      obtain ⟨rfl, rfl⟩ := Path.done_iff.1 last
      exact told_of_textless named (held ▸ .unreadable cause)
    | ok bytes =>
      rw [held] at ended
      cases spelled : Text.ofUtf8? bytes with
      | none =>
        simp only [Program.bind, spelled] at ended
        obtain ⟨rfl, rfl⟩ := Path.done_iff.1 ended
        obtain ⟨rfl, rfl⟩ := Path.done_iff.1 last
        refine told_of_textless named (held ▸ .notUtf8 bytes fun text same => ?_)
        cases spelled.symm.trans (Text.ofUtf8?_eq_some_iff.2 same)
      | some text =>
        simp only [Program.bind, spelled] at ended
        obtain ⟨rfl, rfl⟩ := Path.done_iff.1 ended
        obtain ⟨rfl, rfl⟩ := Path.done_iff.1 last
        have holds : files place = .ok (Text.toUtf8 text) := by
          rw [held, Text.ofUtf8?_eq_some_iff.1 spelled]
        refine told_of_settings (fun other => ⟨?_, ?_⟩) fun also named' => ?_
        · rintro ⟨⟩
          exact ⟨place, named, holds⟩
        · rintro ⟨also, named', holds'⟩
          obtain rfl := named.policyFile_unique named'
          exact spelled.symm.trans
            (Text.ofUtf8?_eq_some_iff.2 (Except.ok.inj (held.symm.trans holds')))
        · obtain rfl := named.policyFile_unique named'
          exact ⟨text, holds⟩

end Settings

/-- Whatever changes make a configuration, the settings of an engine tell what came last of each kind,
for all that the look at the policy file can be answered. The same changes in another order make the same
configuration, and so the same settings or the same error, as long as those of one kind keep their order. -/
theorem settings_by_last_given {changes : List Change} {c : EngineConfig}
    (made : applyAll {} changes = .ok c) :
    (∀ (auth : AuthContext) (files : String → Except FileError (List UInt8)),
      (∃ events result, Path (c.readSettings auth) events result ∧ ReadsAs files events) ∧
      ∀ events result, Path (c.readSettings auth) events result → ReadsAs files events →
        Told changes auth files result) ∧
    ∀ others : List Change, (∀ kind, ofKind others kind = ofKind changes kind) →
      applyAll {} others = .ok c := by
  refine ⟨fun auth files => ⟨exists_path_readsAs files _, fun events result path reads => ?_⟩, ?_⟩
  · rw [eq_assemble_of_applyAll made] at path
    exact told_of_path path reads
  · exact fun others same => applyAll_of_ofKind made same

/-- A mode of decryption that was taken back, a second policy file, endpoints that were cut to one, and
the same calls with those of each kind put together. -/
theorem settings_by_last_given_in_turn :
    let changes : List Change := [.decryptAll true, .policyFile "old.xml", .enable "None, None",
      .endpoints "https://a" "https://b", .decryptAll false, .policyFile "labels.xml",
      .decryptTopOnly true, .endpoints "https://a" "", .enableMsg true]
    let others : List Change := [.enableMsg true, .policyFile "old.xml", .policyFile "labels.xml",
      .endpoints "https://a" "https://b", .endpoints "https://a" "", .decryptTopOnly true,
      .enable "None, None", .decryptAll true, .decryptAll false]
    let files : String → Except FileError (List UInt8) := fun place =>
      if place = "labels.xml" then .ok (Text.toUtf8 "<labels/>") else .error .notFound
    ∃ c, applyAll {} changes = .ok c ∧ applyAll {} others = .ok c ∧ ∀ auth, ∃ events settings,
      Path (c.readSettings auth) events (.ok settings) ∧ Told changes auth files (.ok settings) ∧
      settings.cloud = .commercial ∧ settings.customSettings =
        [("container_decryption_option", "Top"), ("enable_msg_file_type", "true"),
          ("policy_data", "<labels/>")] := by
  intro changes others files
  let c : EngineConfig :=
    { policyFile := some "labels.xml", enableMsg := true, decryptTopOnly := true,
      enabled := [.none, .none] }
  have made : applyAll {} changes = .ok c := by decide +kernel
  obtain ⟨tells, reorders⟩ := settings_by_last_given made
  have kept : applyAll {} others = .ok c := reorders others (by rintro ⟨⟩ <;> decide)
  refine ⟨c, made, kept, fun auth => ?_⟩
  have spelled : Text.ofUtf8? (Text.toUtf8 "<labels/>") = some "<labels/>" :=
    Text.ofUtf8?_eq_some_iff.2 rfl
  have held : files "labels.xml" = .ok (Text.toUtf8 "<labels/>") := rfl
  have path : Path (c.readSettings auth) [⟨.readFile "labels.xml", files "labels.xml"⟩]
      (c.settings (some "<labels/>") auth) := by
    refine Path.bind_iff.2 ⟨_, [], .ok (some "<labels/>"), (List.append_nil _).symm, ?_, .done _⟩
    refine Path.ask (.readFile "labels.xml") _ (files "labels.xml") [] _ ?_
    simp only [held, Program.bind, spelled]
    exact .done _
  refine ⟨_, _, path, (tells auth files).2 _ _ path ?_, rfl, rfl⟩
  intro place answer mem
  cases List.mem_singleton.1 mem
  rfl

end EngineConfig
end DocGuard
