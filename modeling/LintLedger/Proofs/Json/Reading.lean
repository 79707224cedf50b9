import Mathlib.Data.List.Basic
import LintLedger.Json
import LintLedger.Proofs.Text.Cut
import LintLedger.Toml.Quoted

/-!
# Reading JSON documents back

A reader of JSON, strict where the notation is: nothing stands behind the document, nothing behind
the last item, a number has no superfluous zero in front, and a text holds no control characters.
It knows whole numbers only, and no character that is written as two escapes. Where it finds a
document, the text is that one document and no other. What the reports write is read back as it
was, whatever the texts in it.
-/

namespace LintLedger.Json

/-! ## The reader -/

def isSpace (c : Char) : Bool :=
  c == ' ' || c == '\n' || c == '\r' || c == '\t'

def skipSpace (cs : List Char) : List Char :=
  cs.dropWhile isSpace

def escape? : Char → Option Char
  | '"' => some '"'
  | '\\' => some '\\'
  | '/' => some '/'
  | 'b' => some '\x08'
  | 'f' => some '\x0c'
  | 'n' => some '\n'
  | 'r' => some '\r'
  | 't' => some '\t'
  | _ => none

/-- Reads a text, from behind its opening quote on. -/
def readText : List Char → Option (List Char × List Char)
  | [] => none
  | '"' :: cs => some ([], cs)
  | '\\' :: 'u' :: h₁ :: h₂ :: h₃ :: h₄ :: cs => do
    Toml.andText (← Text.hexChar? [h₁, h₂, h₃, h₄]) (readText cs)
  | '\\' :: c :: cs => do Toml.andText (← escape? c) (readText cs)
  | c :: cs => if c.toNat < 0x20 then none else Toml.andText c (readText cs)

def readNumber (cs : List Char) : Option (Nat × List Char) :=
  let digits := cs.takeWhile Char.isDigit
  let value := Nat.ofDigitChars 10 digits 0
  if Nat.toDigits 10 value = digits then some (value, cs.dropWhile Char.isDigit) else none

def readName (cs : List Char) : Option (String × List Char) :=
  match skipSpace cs with
  | '"' :: cs => do
    let (chars, rest) ← readText cs
    match skipSpace rest with
    | ':' :: rest => return (String.ofList chars, rest)
    | _ => none
  | _ => none

/-- What is read by one recursion: a value, or what stands in a list or a record up to the bracket
that closes it, where there is at least one item or field. -/
inductive Part
  | value
  | items
  | fields

abbrev Part.Content : Part → Type
  | .value => Json
  | .items => List Json
  | .fields => List (String × Json)

/-- How a part counts beside the characters left: it may begin with a part that counts less. -/
def Part.rank : Part → Nat
  | .value => 0
  | .items => 1
  | .fields => 1

theorem length_skipSpace_le (cs : List Char) : (skipSpace cs).length ≤ cs.length :=
  (List.dropWhile_sublist isSpace).length_le

/-- Reads a part; no space stands before a value. -/
def readPart (part : Part) (cs : List Char) : Option (part.Content × List Char) :=
  match part with
  | .value =>
    match cs with
    | 't' :: 'r' :: 'u' :: 'e' :: rest => some (.flag true, rest)
    | 'f' :: 'a' :: 'l' :: 's' :: 'e' :: rest => some (.flag false, rest)
    | '"' :: rest => do
      let (chars, rest) ← readText rest
      return (.text (String.ofList chars), rest)
    | '[' :: rest =>
      match skipSpace rest with
      | ']' :: rest => some (.list [], rest)
      | _ => do
        let (items, rest) ← readPart .items rest
        return (.list items, rest)
    | '\x7b' :: rest =>
      match skipSpace rest with
      | '\x7d' :: rest => some (.record [], rest)
      | _ => do
        let (fields, rest) ← readPart .fields rest
        return (.record fields, rest)
    | cs => do
      let (value, rest) ← readNumber cs
      return (.number value, rest)
  | .items => do
    let (item, rest) ← readPart .value (skipSpace cs)
    match skipSpace rest with
    | ',' :: rest =>
      -- What is left is always shorter; that it is looked at is for the recursion to end.
      if rest.length < cs.length then
        let (items, rest) ← readPart .items rest
        return (item :: items, rest)
      else none
    | ']' :: rest => return ([item], rest)
    | _ => none
  | .fields => do
    let (name, rest) ← readName cs
    if rest.length < cs.length then
      let (value, rest) ← readPart .value (skipSpace rest)
      match skipSpace rest with
      | ',' :: rest =>
        if rest.length < cs.length then
          let (fields, rest) ← readPart .fields rest
          return ((name, value) :: fields, rest)
        else none
      | '\x7d' :: rest => return ([(name, value)], rest)
      | _ => none
    else none
termination_by 2 * cs.length + part.rank
decreasing_by
  all_goals simp only [Part.rank, List.length_cons]
  · omega
  · omega
  · have hskip := length_skipSpace_le cs
    omega
  · omega
  · have hskip := length_skipSpace_le rest
    omega
  · omega

/-- The document that a text is, if it is one: nothing but space may stand behind it. -/
def read? (text : String) : Option Json :=
  match readPart .value (skipSpace text.toList) with
  | some (document, rest) => if skipSpace rest = [] then some document else none
  | none => none

/-! ## Space and texts -/

theorem skipSpace_append {front : List Char} (h : ∀ c ∈ front, isSpace c) (cs : List Char) :
    skipSpace (front ++ cs) = skipSpace cs :=
  List.dropWhile_append_of_pos h

theorem skipSpace_cons {c : Char} (h : isSpace c = false) (cs : List Char) :
    skipSpace (c :: cs) = c :: cs := by
  simp [skipSpace, h]

theorem isSpace_of_newLine {depth : Nat} {c : Char} (h : c ∈ newLine depth) : isSpace c := by
  unfold newLine at h
  rcases List.mem_cons.1 h with rfl | hblank
  · rfl
  · rw [List.eq_of_mem_replicate hblank]
    rfl

@[simp]
theorem skipSpace_newLine (depth : Nat) (cs : List Char) :
    skipSpace (newLine depth ++ cs) = skipSpace cs :=
  skipSpace_append (fun _ => isSpace_of_newLine) cs

theorem isSpace_of_isDigit {c : Char} (h : c.isDigit) : isSpace c = false := by
  rw [Bool.eq_false_iff]
  intro hspace
  simp only [isSpace, Bool.or_eq_true, beq_iff_eq] at hspace
  rcases hspace with ((rfl | rfl) | rfl) | rfl <;> revert h <;> decide

theorem hexChar_of_lt :
    ∀ n < 0x20, Text.hexChar? ['0', '0', Text.hexDigit (n / 16), Text.hexDigit (n % 16)] =
      some (Char.ofNat n) := by
  decide

theorem readText_escapeChar (c : Char) (rest : List Char) :
    readText (escapeChar c ++ rest) = Toml.andText c (readText rest) := by
  unfold escapeChar
  split
  · rfl
  · rfl
  · rfl
  · rfl
  · rfl
  · rfl
  · rfl
  · next hquote hbackslash _ _ _ _ _ =>
      split
      · next hcontrol =>
          have hchar := hexChar_of_lt c.toNat hcontrol
          rw [Char.ofNat_toNat] at hchar
          simp only [List.cons_append, List.nil_append, readText, hchar, Option.bind_eq_bind,
            Option.bind_some]
      · next hcontrol =>
          rw [List.singleton_append, readText, if_neg hcontrol]
          all_goals simp_all

/-- A text between its quotes is read as it was. -/
theorem readText_quote (cs rest : List Char) :
    readText (cs.flatMap escapeChar ++ '"' :: rest) = some (cs, rest) := by
  induction cs with
  | nil => rfl
  | cons c cs ih =>
      rw [List.flatMap_cons, List.append_assoc, readText_escapeChar, ih]
      rfl

/-! ## Numbers -/

theorem readNumber_toDigits (value : Nat) {rest : List Char}
    (hrest : ∀ c ∈ rest.head?, ¬ c.isDigit) :
    readNumber (Nat.toDigits 10 value ++ rest) = some (value, rest) := by
  have hdigits : ∀ c ∈ Nat.toDigits 10 value, c.isDigit :=
    fun _ hc => Nat.isDigit_of_mem_toDigits (by decide) (by decide) hc
  have htake : (Nat.toDigits 10 value ++ rest).takeWhile Char.isDigit = Nat.toDigits 10 value :=
    Text.takeWhile_span hdigits hrest
  have hdrop : (Nat.toDigits 10 value ++ rest).dropWhile Char.isDigit = rest :=
    Text.dropWhile_span hdigits hrest
  simp only [readNumber, htake, hdrop, Nat.ofDigitChars_ten_toDigits, if_true]

/-! ## Values -/

/-- The indented form of a value, at any depth, is read as that value; what follows a number must
not go on as one. -/
def Reads (value : Json) : Prop :=
  ∀ (depth : Nat) (rest : List Char), (∀ c ∈ rest.head?, ¬ c.isDigit) →
    readPart .value (skipSpace (indented depth value ++ rest)) = some (value, rest)

theorem readName_quote (depth : Nat) (name : String) (rest : List Char) :
    readName (newLine depth ++ quote name ++ ':' :: rest) = some (name, rest) := by
  have hquote : newLine depth ++ quote name ++ ':' :: rest =
      newLine depth ++ '"' :: (name.toList.flatMap escapeChar ++ '"' :: ':' :: rest) := by
    simp [quote]
  have hcolon : skipSpace (':' :: rest) = ':' :: rest := skipSpace_cons rfl rest
  rw [hquote, readName, skipSpace_newLine, skipSpace_cons rfl]
  simp [readText_quote, hcolon]

theorem reads_flag (value : Bool) : Reads (.flag value) := by
  intro depth rest _
  cases value with
  | false =>
      show readPart .value ('f' :: 'a' :: 'l' :: 's' :: 'e' :: rest) = some (.flag false, rest)
      rw [readPart]
  | true =>
      show readPart .value ('t' :: 'r' :: 'u' :: 'e' :: rest) = some (.flag true, rest)
      rw [readPart]

theorem reads_text (value : String) : Reads (.text value) := by
  intro depth rest _
  have hquote : indented depth (.text value) ++ rest =
      '"' :: (value.toList.flatMap escapeChar ++ '"' :: rest) := by
    simp [indented, quote]
  rw [hquote, skipSpace_cons rfl, readPart]
  simp [readText_quote]

theorem reads_number (value : Nat) : Reads (.number value) := by
  intro depth rest hrest
  obtain ⟨c, cs, hcons⟩ := List.exists_cons_of_ne_nil (Nat.toDigits_ne_nil (n := value) (b := 10))
  have hdigit : c.isDigit := by
    have hmem : c ∈ Nat.toDigits 10 value := by simp [hcons]
    exact Nat.isDigit_of_mem_toDigits (by decide) (by decide) hmem
  have hread := readNumber_toDigits value hrest
  have hdigits : indented depth (.number value) = Nat.toDigits 10 value := by
    simp [indented]
  rw [hcons, List.cons_append] at hread
  rw [hdigits, hcons, List.cons_append, skipSpace_cons (isSpace_of_isDigit hdigit), readPart, hread]
  · rfl
  -- No other kind of value begins with a digit.
  all_goals
    intro _ hother
    obtain ⟨rfl, -⟩ := List.cons.inj hother
    exact absurd hdigit (by decide)

/-! ## Lists -/

section

variable {cs cs' rest : List Char} {item : Json} {items : List Json}

theorem readNumber_eq_none {c : Char} (h : ¬ c.isDigit) : readNumber (c :: cs) = none := by
  have htake : (c :: cs).takeWhile Char.isDigit = [] := List.takeWhile_cons_of_neg h
  simp [readNumber, htake]

theorem readPart_items_bracket (h : skipSpace cs = ']' :: rest) : readPart .items cs = none := by
  have hnumber : readNumber (']' :: rest) = none := readNumber_eq_none (by decide)
  rw [readPart, h, readPart, hnumber]
  · rfl
  all_goals simp

theorem readPart_list (h : readPart .items cs = some (items, rest)) :
    readPart .value (skipSpace ('[' :: cs)) = some (.list items, rest) := by
  rw [skipSpace_cons rfl, readPart]
  split
  · next hbracket =>
      rw [readPart_items_bracket hbracket] at h
      cases h
  · simp [h]

theorem readPart_items_last {depth : Nat}
    (h : readPart .value (skipSpace cs) = some (item, newLine depth ++ ']' :: rest)) :
    readPart .items cs = some ([item], rest) := by
  have hbracket : skipSpace (']' :: rest) = ']' :: rest := skipSpace_cons rfl rest
  rw [readPart, h]
  simp [hbracket]

theorem readPart_items_comma (h : readPart .value (skipSpace cs) = some (item, ',' :: cs'))
    (hshort : cs'.length < cs.length) (hitems : readPart .items cs' = some (items, rest)) :
    readPart .items cs = some (item :: items, rest) := by
  have hcomma : skipSpace (',' :: cs') = ',' :: cs' := skipSpace_cons rfl cs'
  rw [readPart, h]
  simp [hcomma, hshort, hitems]

theorem readPart_items_indented (inner outer : Nat) (hitem : Reads item)
    (hitems : ∀ other ∈ items, Reads other) :
    readPart .items (newLine inner ++
        (',' :: newLine inner).intercalate (indentedItems inner (item :: items)) ++
        newLine outer ++ ']' :: rest) = some (item :: items, rest) := by
  induction items generalizing item with
  | nil =>
      have hread := hitem inner (newLine outer ++ ']' :: rest) (by simp [newLine])
      apply @readPart_items_last _ _ _ outer
      simp [indentedItems, hread]
  | cons next items ih =>
      have hnext := ih (hitems next List.mem_cons_self)
        fun other hmem => hitems other (List.mem_cons_of_mem next hmem)
      have hread := hitem inner (',' :: (newLine inner ++
        (',' :: newLine inner).intercalate (indentedItems inner (next :: items)) ++
        newLine outer ++ ']' :: rest)) (by simp)
      refine readPart_items_comma ?_ ?_ hnext
      · rw [← hread]
        simp [indentedItems, List.intercalate_cons_cons]
      · simp [indentedItems, List.intercalate_cons_cons]
        omega

theorem reads_list (h : ∀ item ∈ items, Reads item) : Reads (.list items) := by
  intro depth rest _
  cases items with
  | nil =>
      have hlist : indented depth (.list []) ++ rest = '[' :: ']' :: rest := by
        simp [indented, indentedItems, bracket]
      rw [hlist, skipSpace_cons rfl, readPart, skipSpace_cons rfl]
      rfl
  | cons item items =>
      have hitems := @readPart_items_indented rest item items (depth + 1) depth
        (h item List.mem_cons_self) fun other hmem => h other (List.mem_cons_of_mem item hmem)
      rw [← readPart_list hitems]
      simp [indented, indentedItems, bracket]

end

/-! ## Records -/

section

variable {cs cs' cs'' rest : List Char} {name : String} {value : Json}
  {field : String × Json} {fields : List (String × Json)}

theorem readPart_fields_brace (h : skipSpace cs = '\x7d' :: rest) : readPart .fields cs = none := by
  rw [readPart, readName, h]
  rfl

theorem readPart_record (h : readPart .fields cs = some (fields, rest)) :
    readPart .value (skipSpace ('\x7b' :: cs)) = some (.record fields, rest) := by
  rw [skipSpace_cons rfl, readPart]
  split
  · next hbrace =>
      rw [readPart_fields_brace hbrace] at h
      cases h
  · simp [h]

theorem readPart_fields_last {depth : Nat} (hname : readName cs = some (name, cs'))
    (hshort : cs'.length < cs.length)
    (hvalue : readPart .value (skipSpace cs') = some (value, newLine depth ++ '\x7d' :: rest)) :
    readPart .fields cs = some ([(name, value)], rest) := by
  have hbrace : skipSpace ('\x7d' :: rest) = '\x7d' :: rest := skipSpace_cons rfl rest
  rw [readPart, hname]
  simp [hshort, hvalue, hbrace]

theorem readPart_fields_comma (hname : readName cs = some (name, cs'))
    (hshort : cs'.length < cs.length)
    (hvalue : readPart .value (skipSpace cs') = some (value, ',' :: cs''))
    (hshort' : cs''.length < cs.length) (hfields : readPart .fields cs'' = some (fields, rest)) :
    readPart .fields cs = some ((name, value) :: fields, rest) := by
  have hcomma : skipSpace (',' :: cs'') = ',' :: cs'' := skipSpace_cons rfl cs''
  rw [readPart, hname]
  simp [hshort, hvalue, hcomma, hshort', hfields]

/-- A field is read as its name and its value, if what follows does not go on as a number. -/
theorem readField_indented (depth : Nat) (hvalue : Reads field.2) (rest : List Char)
    (hrest : ∀ c ∈ rest.head?, ¬ c.isDigit) :
    let text := newLine depth ++ (quote field.1 ++ ": ".toList ++ indented depth field.2) ++ rest
    ∃ cs, readName text = some (field.1, cs) ∧ cs.length < text.length ∧
      readPart .value (skipSpace cs) = some (field.2, rest) := by
  intro text
  refine ⟨' ' :: (indented depth field.2 ++ rest), ?_, ?_, ?_⟩
  · rw [← readName_quote depth]
    simp [text]
  · simp [text, quote]
    omega
  · exact hvalue depth rest hrest

theorem readPart_fields_indented (inner outer : Nat) (hfield : Reads field.2)
    (hfields : ∀ other ∈ fields, Reads other.2) :
    readPart .fields (newLine inner ++
        (',' :: newLine inner).intercalate (indentedFields inner (field :: fields)) ++
        newLine outer ++ '\x7d' :: rest) = some (field :: fields, rest) := by
  induction fields generalizing field with
  | nil =>
      obtain ⟨cs, hname, hshort, hvalue⟩ := readField_indented inner hfield
        (newLine outer ++ '\x7d' :: rest) (by simp [newLine])
      rw [← readPart_fields_last hname hshort hvalue]
      simp [indentedFields]
  | cons next fields ih =>
      have hnext := ih (hfields next List.mem_cons_self)
        fun other hmem => hfields other (List.mem_cons_of_mem next hmem)
      obtain ⟨cs, hname, hshort, hvalue⟩ := readField_indented inner hfield (',' :: (newLine inner ++
        (',' :: newLine inner).intercalate (indentedFields inner (next :: fields)) ++
        newLine outer ++ '\x7d' :: rest)) (by simp)
      rw [← readPart_fields_comma hname hshort hvalue ?_ hnext]
      · simp [indentedFields, List.intercalate_cons_cons]
      · simp
        omega

theorem reads_record (h : ∀ field ∈ fields, Reads field.2) : Reads (.record fields) := by
  intro depth rest _
  cases fields with
  | nil =>
      have hrecord : indented depth (.record []) ++ rest = '\x7b' :: '\x7d' :: rest := by
        simp [indented, indentedFields, bracket]
      rw [hrecord, skipSpace_cons rfl, readPart, skipSpace_cons rfl]
      rfl
  | cons field fields =>
      have hfields := @readPart_fields_indented rest field fields (depth + 1) depth
        (h field List.mem_cons_self) fun other hmem => h other (List.mem_cons_of_mem field hmem)
      rw [← readPart_record hfields]
      simp [indented, indentedFields, bracket]

end

/-! ## Documents -/

theorem reads (document : Json) : Reads document := by
  match document with
  | .flag value => exact reads_flag value
  | .number value => exact reads_number value
  | .text value => exact reads_text value
  | .list items => exact reads_list fun item _ => reads item
  | .record fields =>
      refine reads_record fun field hfield => ?_
      have hsmaller : sizeOf field.2 < sizeOf fields := by
        have hlist := List.sizeOf_lt_of_mem hfield
        cases field
        simp only [Prod.mk.sizeOf_spec] at hlist ⊢
        omega
      exact reads field.2

/-- A text that is one document, in its indented form and with a line feed behind it. -/
structure IsText (document : Json) (text : String) : Prop where
  layout : text = document.pretty ++ "\n"
  reading : read? text = some document

/-- Whatever a document holds, its indented form is read as that document. -/
theorem isText_pretty (document : Json) : IsText document (document.pretty ++ "\n") := by
  refine ⟨rfl, ?_⟩
  have hread := reads document 0 ['\n'] (by simp)
  have hspace : skipSpace ['\n'] = [] := rfl
  rw [read?, pretty, String.toList_append, String.toList_ofList]
  simp [hread, hspace]

end LintLedger.Json
