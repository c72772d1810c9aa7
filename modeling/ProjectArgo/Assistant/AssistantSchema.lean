import Mathlib
import ProjectArgo.Library.Deciding

/-!
# The schema of a command

A small subset of JSON schema. A schema is checked once, when it is configured;
arguments are checked against it later, without looking at the schema's own form
again. What a checked schema means is said keyword by keyword, for the three
notions in which a program may differ from the standard.
-/
namespace ProjectArgo.Assistant

open Library.Deciding

/-- A value as it was decoded. The entries of a map are in the order in which they came. -/
inductive Value
  | null
  | bool (value : Bool)
  | int (value : ℤ)
  | double (value : ℚ)
  | notFinite
  | string (text : String)
  | list (items : List Value)
  | map (entries : List (String × Value))

abbrev Entries := List (String × Value)

/-- Null where there is no such key. -/
def Entries.get (entries : Entries) (key : String) : Value :=
  (List.lookup key entries).getD .null

def Entries.containsKey (entries : Entries) (key : String) : Bool :=
  (List.lookup key entries).isSome

/-- The value of a finite number. -/
def Value.number : Value → Option ℚ
  | .int value => some value
  | .double value => some value
  | _ => none

/-- The length of a string in the units of its encoding. -/
def utf16Length (text : String) : ℕ :=
  (text.toList.map fun c => if c.toNat < 0x10000 then 1 else 2).sum

/-- What was thrown: a `FormatException` with its message, or a cast that failed. -/
inductive Thrown
  | format (message : String)
  | type
  deriving DecidableEq

def Thrown.IsFormat (e : Thrown) : Prop := ∃ message, e = .format message

/-- What a value does not tell: which two lists or maps are one object, and what is written for
a value that is not a string. -/
structure Runtime where
  identical : Value → Value → Bool
  toText : Value → String

namespace AssistantSchema

/-! ## Checking a schema -/

def supported : List String :=
  ["type", "description", "properties", "required", "additionalProperties", "enum", "minimum",
    "maximum", "maxLength", "minLength", "items", "maxItems"]

def types : List String := ["object", "array", "string", "boolean", "integer", "number", "null"]

/-- What the checks ask of single keywords. -/
def isType : Value → Bool
  | .string type => types.contains type
  | _ => false

def isFalse : Value → Bool
  | .bool value => !value
  | _ => false

def isNonEmptyList : Value → Bool
  | .list items => !items.isEmpty
  | _ => false

def isNull : Value → Bool
  | .null => true
  | _ => false

def isNatural : Value → Bool
  | .int value => 0 ≤ value
  | _ => false

def isKeyOf (properties : Entries) : Value → Bool
  | .string key => properties.containsKey key
  | _ => false

def isRequired (properties : Entries) : Value → Bool
  | .null => true
  | .list names => names.all (isKeyOf properties)
  | _ => false

def isNamed (type : String) : Value → Bool
  | .string name => name == type
  | _ => false

variable (checkSub : Entries → Except Thrown Unit)

def checkProperty : String × Value → Except Thrown Unit
  | (_, .map sub) => checkSub sub
  | _ => .error (.format "Invalid property schema.")

def checkObject (schema : Entries) : Except Thrown Unit :=
  match schema.get "properties" with
  | .map properties => do
    check (.format "Objects require properties and additionalProperties:false.")
      (isFalse (schema.get "additionalProperties"))
    check (.format "Too many properties.") (properties.length ≤ 32)
    each (checkProperty checkSub) properties
    check (.format "Invalid required properties.")
      (isRequired properties (schema.get "required"))
  | _ => .error (.format "Objects require properties and additionalProperties:false.")

def checkArray (schema : Entries) : Except Thrown Unit :=
  match schema.get "items" with
  | .map items => checkSub items
  | _ => .error (.format "Array items required.")

/-- A check for schemas of one type. -/
def onlyFor (type : String) (schema : Entries) (checked : Except Thrown Unit) :
    Except Thrown Unit :=
  if isNamed type (schema.get "type") then checked else .ok ()

/-- `levels` is what the depth leaves of the nine levels of a schema. -/
def checkSchema : ℕ → Entries → Except Thrown Unit
  | 0, _ => .error (.format "Schema nesting exceeds 8.")
  | levels + 1, schema => do
    check (.format "Unsupported assistant schema keyword.")
      (∀ entry ∈ schema, entry.1 ∈ supported)
    check (.format "Unsupported assistant schema type.") (isType (schema.get "type"))
    onlyFor "object" schema (checkObject (checkSchema levels) schema)
    onlyFor "array" schema (checkArray (checkSchema levels) schema)
    check (.format "Enum must be a nonempty list.")
      (schema.containsKey "enum" → isNonEmptyList (schema.get "enum"))
    each (fun key => check (.format (key ++ " must be finite."))
      (isNull (schema.get key) ∨ (schema.get key).number.isSome)) ["minimum", "maximum"]
    each (fun key => check (.format (key ++ " must be a nonnegative integer."))
      (isNull (schema.get key) ∨ isNatural (schema.get key))) ["minLength", "maxLength", "maxItems"]

/-- The constructor. -/
def construct (schema : Entries) : Except Thrown Unit := checkSchema 9 schema

/-! ## Validating a value -/

variable (runtime : Runtime)

/-- Equality of two values of the language. -/
def equals : Value → Value → Bool
  | .null, .null => true
  | .bool a, .bool b => a == b
  | .string a, .string b => a == b
  | .list a, .list b => runtime.identical (.list a) (.list b)
  | .map a, .map b => runtime.identical (.map a) (.map b)
  | a, b =>
    match a.number, b.number with
    | some x, some y => x == y
    | _, _ => false

def text : Value → String
  | .string text => text
  | value => runtime.toText value

def asMap : Value → Except Thrown Entries
  | .map entries => .ok entries
  | _ => .error .type

/-- A list, or nothing where there is null. -/
def asList : Value → Except Thrown (List Value)
  | .null => .ok []
  | .list items => .ok items
  | _ => .error .type

/-- An integer, or the default where there is null. -/
def asInt (default : ℤ) : Value → Except Thrown ℤ
  | .null => .ok default
  | .int value => .ok value
  | _ => .error .type

/-- Whether a value has the type that a schema names. -/
def valid : Value → Value → Bool
  | .string type, value =>
    match value with
    | .null => type == "null"
    | .bool _ => type == "boolean"
    | .int _ => type == "integer" || type == "number"
    | .double _ => type == "number"
    | .notFinite => false
    | .string _ => type == "string"
    | .list _ => type == "array"
    | .map _ => type == "object"
  | _, _ => false

def checkEnum (allowed value : Value) (path : String) : Except Thrown Unit :=
  match allowed with
  | .list allowed =>
    check (.format (path ++ " is not an allowed value."))
      (allowed.any fun entry => equals runtime entry value)
  | _ => .ok ()

/-- The first two checks, which every value passes. -/
def checkValue (schema : Entries) (value : Value) (path : String) : Except Thrown Unit := do
  check (.format (path ++ " must be " ++ text runtime (schema.get "type") ++ "."))
    (valid (schema.get "type") value)
  checkEnum runtime (schema.get "enum") value path

def isKeyIn (entries : Entries) : Value → Bool
  | .string key => entries.containsKey key
  | _ => false

def checkRequired (entries : Entries) (names : List Value) (path : String) : Except Thrown Unit :=
  each (fun key => check (.format (path ++ "." ++ text runtime key ++ " is required."))
    (isKeyIn entries key)) names

def checkRange (schema : Entries) (value : Value) (path : String) : Except Thrown Unit :=
  match value.number with
  | none => .ok ()
  | some x =>
    check (.format (path ++ " is outside its allowed range."))
      ((∀ low ∈ (schema.get "minimum").number, low ≤ x) ∧
        ∀ high ∈ (schema.get "maximum").number, x ≤ high)

mutual

def validate : Value → Entries → String → Except Thrown Unit
  | .map entries, schema, path => do
    checkValue runtime schema (.map entries) path
    let properties ← asMap (schema.get "properties")
    check (.format (path ++ " has unknown properties."))
      (∀ entry ∈ entries, Entries.containsKey properties entry.1)
    let required ← asList (schema.get "required")
    checkRequired runtime entries required path
    validateEntries entries properties path
  | .list items, schema, path => do
    checkValue runtime schema (.list items) path
    let maxItems ← asInt 64 (schema.get "maxItems")
    check (.format (path ++ " is too long.")) (items.length ≤ maxItems)
    validateItems items (schema.get "items") path
  | .string value, schema, path => do
    checkValue runtime schema (.string value) path
    let maxLength ← asInt 1024 (schema.get "maxLength")
    check (.format (path ++ " has invalid length.")) (utf16Length value ≤ maxLength)
    let minLength ← asInt 0 (schema.get "minLength")
    check (.format (path ++ " has invalid length.")) (minLength ≤ utf16Length value)
  | value, schema, path => do
    checkValue runtime schema value path
    checkRange schema value path

def validateItems : List Value → Value → String → Except Thrown Unit
  | [], _, _ => .ok ()
  | item :: rest, schema, path => do
    let items ← asMap schema
    validate item items (path ++ "[]")
    validateItems rest schema path

def validateEntries : List (String × Value) → Entries → String → Except Thrown Unit
  | [], _, _ => .ok ()
  | (key, value) :: rest, properties, path => do
    let property ← asMap (properties.get key)
    validate value property (path ++ "." ++ key)
    validateEntries rest properties path

end

/-! ## What a schema means -/

/-- Where the standard and a program that follows it may differ. -/
structure Meaning where
  length : String → ℕ
  integer : Value → Prop
  equal : Value → Value → Prop

def Meaning.hasType (m : Meaning) (type : String) (value : Value) : Prop :=
  (type = "object" ∧ ∃ entries, value = .map entries) ∨
  (type = "array" ∧ ∃ items, value = .list items) ∨
  (type = "string" ∧ ∃ text, value = .string text) ∨
  (type = "boolean" ∧ ∃ b, value = .bool b) ∨
  (type = "integer" ∧ m.integer value) ∨
  (type = "number" ∧ value.number.isSome) ∨
  (type = "null" ∧ value = .null)

/-- The number that a keyword gives, or the default. -/
def bound (default : ℤ) : Value → ℤ
  | .int value => value
  | _ => default

/-- The value conforms to the schema: it has the type, it is one of the listed values, and every
keyword that applies to values of its kind holds. -/
inductive Conforms (m : Meaning) : Entries → Value → Prop
  | intro {schema : Entries} {value : Value}
      (type : ∃ type, schema.get "type" = .string type ∧ m.hasType type value)
      (enum : ∀ allowed, schema.get "enum" = .list allowed → ∃ entry ∈ allowed, m.equal entry value)
      (minimum : ∀ x low, value.number = some x →
        (schema.get "minimum").number = some low → low ≤ x)
      (maximum : ∀ x high, value.number = some x →
        (schema.get "maximum").number = some high → x ≤ high)
      (maxLength : ∀ text, value = .string text →
        m.length text ≤ bound 1024 (schema.get "maxLength"))
      (minLength : ∀ text, value = .string text → bound 0 (schema.get "minLength") ≤ m.length text)
      (maxItems : ∀ items, value = .list items → items.length ≤ bound 64 (schema.get "maxItems"))
      (items : ∀ items item sub, value = .list items → schema.get "items" = .map sub →
        item ∈ items → Conforms m sub item)
      (additional : ∀ entries properties, value = .map entries →
        schema.get "properties" = .map properties → isFalse (schema.get "additionalProperties") →
        ∀ entry ∈ entries, Entries.containsKey properties entry.1)
      (required : ∀ entries names name, value = .map entries → schema.get "required" = .list names →
        .string name ∈ names → Entries.containsKey entries name)
      (properties : ∀ entries properties key item sub, value = .map entries →
        schema.get "properties" = .map properties → (key, item) ∈ entries →
        Entries.get properties key = .map sub → Conforms m sub item) :
      Conforms m schema value

/-- What the language makes of the three notions. -/
def dart : Meaning where
  length := utf16Length
  integer value := ∃ n, value = .int n
  equal a b := equals runtime a b

/-! ## What the constructor has checked -/

/-- The keywords that `validate` relies on. -/
structure Checked (levels : ℕ) (schema : Entries) : Prop where
  type : ∃ type, schema.get "type" = .string type
  object : schema.get "type" = .string "object" → ∃ properties,
    schema.get "properties" = .map properties ∧ isFalse (schema.get "additionalProperties") ∧
      (∀ entry ∈ properties, ∃ sub, entry.2 = .map sub ∧ checkSchema levels sub = .ok ()) ∧
        isRequired properties (schema.get "required")
  array : schema.get "type" = .string "array" → ∃ sub,
    schema.get "items" = .map sub ∧ checkSchema levels sub = .ok ()
  bounds : ∀ key ∈ ["minLength", "maxLength", "maxItems"],
    schema.get key = .null ∨ ∃ n, schema.get key = .int n

theorem checkProperty_eq_ok {checkSub : Entries → Except Thrown Unit} {entry : String × Value}
    (h : checkProperty checkSub entry = .ok ()) : ∃ sub, entry.2 = .map sub ∧
      checkSub sub = .ok () := by
  obtain ⟨key, value⟩ := entry
  cases value with
  | map sub => exact ⟨sub, rfl, h⟩
  | _ => exact nomatch h

theorem checkObject_eq_ok {checkSub : Entries → Except Thrown Unit} {schema : Entries}
    (h : checkObject checkSub schema = .ok ()) : ∃ properties,
      schema.get "properties" = .map properties ∧ isFalse (schema.get "additionalProperties") ∧
        (∀ entry ∈ properties, ∃ sub, entry.2 = .map sub ∧ checkSub sub = .ok ()) ∧
          isRequired properties (schema.get "required") := by
  unfold checkObject at h
  cases hproperties : schema.get "properties" with
  | map properties =>
    simp only [hproperties, bind_eq_ok, check_eq_ok, each_eq_ok] at h
    obtain ⟨hfalse, -, hsub, hrequired⟩ := h
    exact ⟨properties, rfl, hfalse, fun entry hentry => checkProperty_eq_ok (hsub entry hentry),
      hrequired⟩
  | _ =>
    rw [hproperties] at h
    exact nomatch h

theorem checkArray_eq_ok {checkSub : Entries → Except Thrown Unit} {schema : Entries}
    (h : checkArray checkSub schema = .ok ()) :
    ∃ sub, schema.get "items" = .map sub ∧ checkSub sub = .ok () := by
  unfold checkArray at h
  cases hitems : schema.get "items" with
  | map sub =>
    rw [hitems] at h
    exact ⟨sub, rfl, h⟩
  | _ =>
    rw [hitems] at h
    exact nomatch h

theorem isType_eq {value : Value} (h : isType value) : ∃ type, value = .string type := by
  cases value with
  | string type => exact ⟨type, rfl⟩
  | _ => exact nomatch h

theorem isNull_or_isNatural {value : Value} (h : isNull value ∨ isNatural value) :
    value = .null ∨ ∃ n, value = .int n := by
  cases value with
  | null => exact Or.inl rfl
  | int n => exact Or.inr ⟨n, rfl⟩
  | _ => exact absurd h (by simp [isNull, isNatural])

theorem onlyFor_eq_ok {type : String} {schema : Entries} {checked : Except Thrown Unit}
    (hname : schema.get "type" = .string type) (h : onlyFor type schema checked = .ok ()) :
    checked = .ok () := by
  have hnamed : isNamed type (.string type) := beq_self_eq_true type
  unfold onlyFor at h
  rw [hname, if_pos hnamed] at h
  exact h

theorem checkSchema_checked {levels : ℕ} {schema : Entries}
    (h : checkSchema (levels + 1) schema = .ok ()) : Checked levels schema := by
  simp only [checkSchema, bind_eq_ok, check_eq_ok, each_eq_ok] at h
  obtain ⟨-, htype, hobject, harray, -, -, hbounds⟩ := h
  exact
    { type := isType_eq htype
      object := by
        intro hname
        exact checkObject_eq_ok (onlyFor_eq_ok hname hobject)
      array := by
        intro hname
        exact checkArray_eq_ok (onlyFor_eq_ok hname harray)
      bounds := fun key hkey => isNull_or_isNatural (hbounds key hkey) }

/-! ## What `validate` decides -/

theorem format_isFormat (message : String) : (Thrown.format message).IsFormat := ⟨message, rfl⟩

theorem valid_iff {type : String} {value : Value} :
    valid (.string type) value ↔ (dart runtime).hasType type value := by
  cases value <;> simp [valid, Meaning.hasType, dart, Value.number]

/-- The type and the list of values. -/
def Admitted (m : Meaning) (schema : Entries) (value : Value) : Prop :=
  (∃ type, schema.get "type" = .string type ∧ m.hasType type value) ∧
    ∀ allowed, schema.get "enum" = .list allowed → ∃ entry ∈ allowed, m.equal entry value

theorem Conforms.admitted {m : Meaning} {schema : Entries} {value : Value}
    (h : Conforms m schema value) : Admitted m schema value := by
  obtain ⟨htype, henum, -, -, -, -, -, -, -, -, -⟩ := h
  exact ⟨htype, henum⟩

theorem checkValue_decides {schema : Entries} (htype : ∃ type, schema.get "type" = .string type)
    (value : Value) (path : String) :
    Decides Thrown.IsFormat (Admitted (dart runtime) schema value)
      (checkValue runtime schema value path) := by
  obtain ⟨type, htype⟩ := htype
  unfold checkValue
  refine ((decides_check (format_isFormat _)).bind fun _ => ?_).congr (and_congr ?_ Iff.rfl)
  · unfold checkEnum
    cases henum : schema.get "enum" with
    | list allowed =>
      apply (decides_check (format_isFormat _)).congr
      simp [dart]
    | _ => exact decides_ok.congr (by simp)
  · rw [htype]
    rw [valid_iff runtime]
    simp

theorem validateItems_eq (items : List Value) (schema : Value) (path : String) :
    validateItems runtime items schema path = each (fun item => do
      let sub ← asMap schema
      validate runtime item sub (path ++ "[]")) items := by
  induction items with
  | nil => rw [validateItems, each]
  | cons item items ih =>
    rw [validateItems, each, ih]
    cases asMap schema with
    | error e => rfl
    | ok sub => rfl

theorem validateEntries_eq (entries properties : Entries) (path : String) :
    validateEntries runtime entries properties path = each (fun entry => do
      let property ← asMap (properties.get entry.1)
      validate runtime entry.2 property (path ++ "." ++ entry.1)) entries := by
  induction entries with
  | nil => rw [validateEntries, each]
  | cons entry entries ih =>
    obtain ⟨key, value⟩ := entry
    rw [validateEntries, each, ih]
    cases asMap (properties.get key) with
    | error e => rfl
    | ok sub => rfl

theorem checkRange_decides (schema : Entries) (value : Value) (path : String) :
    Decides Thrown.IsFormat
      ((∀ x low, value.number = some x → (schema.get "minimum").number = some low → low ≤ x) ∧
        ∀ x high, value.number = some x → (schema.get "maximum").number = some high → x ≤ high)
      (checkRange schema value path) := by
  unfold checkRange
  cases hnumber : value.number with
  | none => exact decides_ok.congr (by simp)
  | some x =>
    apply (decides_check (format_isFormat _)).congr
    constructor
    · rintro ⟨hleast, hmost⟩
      refine ⟨?_, ?_⟩
      · rintro _ low ⟨⟩ hlow
        exact hleast low hlow
      · rintro _ high ⟨⟩ hhigh
        exact hmost high hhigh
    · rintro ⟨hleast, hmost⟩
      exact ⟨fun low hlow => hleast x low rfl hlow, fun high hhigh => hmost x high rfl hhigh⟩

theorem asInt_bound (default : ℤ) {value : Value} (h : value = .null ∨ ∃ n, value = .int n) :
    asInt default value = .ok (bound default value) := by
  rcases h with rfl | ⟨n, rfl⟩
  · rfl
  · rfl

section Shapes

variable {m : Meaning} {schema : Entries}

/-- The conditions on a map. -/
theorem conforms_map {entries properties : Entries} {names : List Value}
    (hproperties : schema.get "properties" = .map properties)
    (hfalse : isFalse (schema.get "additionalProperties"))
    (hnames : asList (schema.get "required") = .ok names)
    (hstrings : ∀ name ∈ names, ∃ key, name = .string key) :
    Conforms m schema (.map entries) ↔ Admitted m schema (.map entries) ∧
      (∀ entry ∈ entries, Entries.containsKey properties entry.1) ∧
        (∀ name ∈ names, isKeyIn entries name) ∧
          ∀ entry ∈ entries, ∀ sub, Entries.get properties entry.1 = .map sub →
            Conforms m sub entry.2 := by
  constructor
  · rintro ⟨htype, henum, -, -, -, -, -, -, hadditional, hrequired, hsub⟩
    refine ⟨⟨htype, henum⟩, hadditional entries properties rfl hproperties hfalse, ?_, ?_⟩
    · intro name hname
      obtain ⟨key, rfl⟩ := hstrings name hname
      cases hlist : schema.get "required" with
      | null =>
        rw [hlist] at hnames
        cases hnames
        exact absurd hname List.not_mem_nil
      | list items =>
        rw [hlist] at hnames
        cases hnames
        exact hrequired entries _ key rfl hlist hname
      | _ =>
        rw [hlist] at hnames
        exact nomatch hnames
    · rintro ⟨key, item⟩ hentry sub hfound
      exact hsub entries properties key item sub rfl hproperties hentry hfound
  · rintro ⟨⟨htype, henum⟩, hadditional, hrequired, hsub⟩
    refine ⟨htype, henum, nofun, nofun, nofun, nofun, nofun, nofun, ?_, ?_, ?_⟩
    · intro entries' properties' hsame hfound _
      cases hsame
      rw [hproperties] at hfound
      cases hfound
      exact hadditional
    · intro entries' names' name hsame hfound hname
      cases hsame
      rw [hfound] at hnames
      cases hnames
      exact hrequired _ hname
    · intro entries' properties' key item sub hsame hfound hentry hget
      cases hsame
      rw [hproperties] at hfound
      cases hfound
      exact hsub (key, item) hentry sub hget

/-- The conditions on a list. -/
theorem conforms_list {items : List Value} {sub : Entries}
    (hitems : schema.get "items" = .map sub) :
    Conforms m schema (.list items) ↔ Admitted m schema (.list items) ∧
      items.length ≤ bound 64 (schema.get "maxItems") ∧ ∀ item ∈ items, Conforms m sub item := by
  constructor
  · rintro ⟨htype, henum, -, -, -, -, hmost, hsub, -, -, -⟩
    exact ⟨⟨htype, henum⟩, hmost items rfl, fun item => hsub items item sub rfl hitems⟩
  · rintro ⟨⟨htype, henum⟩, hmost, hsub⟩
    refine ⟨htype, henum, nofun, nofun, nofun, nofun, ?_, ?_, nofun, nofun, nofun⟩
    · intro items' hsame
      cases hsame
      exact hmost
    · intro items' item sub' hsame hfound hitem
      cases hsame
      rw [hitems] at hfound
      cases hfound
      exact hsub item hitem

/-- The conditions on a string. -/
theorem conforms_string {value : String} :
    Conforms m schema (.string value) ↔ Admitted m schema (.string value) ∧
      m.length value ≤ bound 1024 (schema.get "maxLength") ∧
        bound 0 (schema.get "minLength") ≤ m.length value := by
  constructor
  · rintro ⟨htype, henum, -, -, hmost, hleast, -, -, -, -, -⟩
    exact ⟨⟨htype, henum⟩, hmost value rfl, hleast value rfl⟩
  · rintro ⟨⟨htype, henum⟩, hmost, hleast⟩
    refine ⟨htype, henum, nofun, nofun, ?_, ?_, nofun, nofun, nofun, nofun, nofun⟩
    · intro value' hsame
      cases hsame
      exact hmost
    · intro value' hsame
      cases hsame
      exact hleast

/-- The conditions on a value without parts. -/
theorem conforms_plain {value : Value} (hmap : ∀ entries, value ≠ .map entries)
    (hlist : ∀ items, value ≠ .list items) (hstring : ∀ text, value ≠ .string text) :
    Conforms m schema value ↔ Admitted m schema value ∧
      (∀ x low, value.number = some x → (schema.get "minimum").number = some low → low ≤ x) ∧
        ∀ x high, value.number = some x → (schema.get "maximum").number = some high → x ≤ high := by
  constructor
  · rintro ⟨htype, henum, hleast, hmost, -, -, -, -, -, -, -⟩
    exact ⟨⟨htype, henum⟩, hleast, hmost⟩
  · rintro ⟨⟨htype, henum⟩, hleast, hmost⟩
    refine ⟨htype, henum, hleast, hmost, ?_, ?_, ?_, ?_, ?_, ?_, ?_⟩
    · exact fun text hsame => absurd hsame (hstring text)
    · exact fun text hsame => absurd hsame (hstring text)
    · exact fun items hsame => absurd hsame (hlist items)
    · exact fun items _ _ hsame => absurd hsame (hlist items)
    · exact fun entries _ hsame => absurd hsame (hmap entries)
    · exact fun entries _ _ hsame => absurd hsame (hmap entries)
    · exact fun entries _ _ _ _ hsame => absurd hsame (hmap entries)

end Shapes

theorem decides_plain {levels : ℕ} {schema : Entries} (checked : Checked levels schema)
    {value : Value} (hmap : ∀ entries, value ≠ .map entries)
    (hlist : ∀ items, value ≠ .list items) (hstring : ∀ text, value ≠ .string text)
    (path : String) :
    Decides Thrown.IsFormat (Conforms (dart runtime) schema value) (do
      checkValue runtime schema value path
      checkRange schema value path) := by
  have hvalue := checkValue_decides runtime checked.type value path
  apply (hvalue.bind fun _ => checkRange_decides schema value path).congr
  exact (conforms_plain hmap hlist hstring).symm

theorem decides_string {levels : ℕ} {schema : Entries} (checked : Checked levels schema)
    (value path : String) :
    Decides Thrown.IsFormat (Conforms (dart runtime) schema (.string value))
      (validate runtime (.string value) schema path) := by
  have hmost := asInt_bound 1024 (checked.bounds "maxLength" (by decide))
  have hleast := asInt_bound 0 (checked.bounds "minLength" (by decide))
  rw [validate, hmost, hleast]
  have hvalue := checkValue_decides runtime checked.type (.string value) path
  refine (hvalue.bind fun _ => ?_).congr conforms_string.symm
  exact (decides_check (format_isFormat _)).bind fun _ => decides_check (format_isFormat _)

theorem isRequired_names {properties : Entries} {required : Value}
    (h : isRequired properties required) : ∃ names, asList required = .ok names ∧
      ∀ name ∈ names, ∃ key, name = .string key := by
  cases required with
  | null => exact ⟨[], rfl, nofun⟩
  | list names =>
    refine ⟨names, rfl, ?_⟩
    intro name hname
    have hkey := List.all_eq_true.mp h name hname
    cases name with
    | string key => exact ⟨key, rfl⟩
    | _ => exact nomatch hkey
  | _ => exact nomatch h

theorem get_map_of_containsKey {properties : Entries} {key : String}
    (hsub : ∀ entry ∈ properties, ∃ sub, entry.2 = .map sub)
    (h : properties.containsKey key) :
    ∃ sub, properties.get key = .map sub ∧ (key, .map sub) ∈ properties := by
  obtain ⟨value, hvalue⟩ := Option.isSome_iff_exists.mp h
  obtain ⟨before, after, hsplit, -⟩ := List.lookup_eq_some_iff.mp hvalue
  have hmem : (key, value) ∈ properties := by
    rw [hsplit]
    exact List.mem_append_right _ (List.mem_cons_self ..)
  obtain ⟨sub, hmap⟩ := hsub _ hmem
  have hmap : value = .map sub := hmap
  rw [hmap] at hvalue hmem
  refine ⟨sub, ?_, hmem⟩
  unfold Entries.get
  rw [hvalue, Option.getD_some]

theorem Admitted.array {schema : Entries} {items : List Value}
    (h : Admitted (dart runtime) schema (.list items)) : schema.get "type" = .string "array" := by
  obtain ⟨⟨type, htype, hlist⟩, -⟩ := h
  simp [Meaning.hasType, dart, Value.number] at hlist
  rw [htype, hlist]

theorem Admitted.object {schema entries : Entries}
    (h : Admitted (dart runtime) schema (.map entries)) :
    schema.get "type" = .string "object" := by
  obtain ⟨⟨type, htype, hmap⟩, -⟩ := h
  simp [Meaning.hasType, dart, Value.number] at hmap
  rw [htype, hmap]

section Parts

variable {levels : ℕ} {schema : Entries} (checked : Checked levels schema)
  (ih : ∀ schema, checkSchema levels schema = .ok () → ∀ value path,
    Decides Thrown.IsFormat (Conforms (dart runtime) schema value)
      (validate runtime value schema path))

include checked ih

theorem decides_list (items : List Value) (path : String) :
    Decides Thrown.IsFormat (Conforms (dart runtime) schema (.list items))
      (validate runtime (.list items) schema path) := by
  have hvalue := checkValue_decides runtime checked.type (.list items) path
  have hmost := asInt_bound 64 (checked.bounds "maxItems" (by decide))
  rw [validate, hmost]
  refine hvalue.bind_of Conforms.admitted fun hadmitted => ?_
  obtain ⟨sub, hitems, hsub⟩ := checked.array (hadmitted.array runtime)
  have heach : Decides Thrown.IsFormat (∀ item ∈ items, Conforms (dart runtime) sub item)
      (validateItems runtime items (schema.get "items") path) := by
    rw [validateItems_eq, hitems]
    exact decides_each fun item _ => ih sub hsub item _
  apply ((decides_check (format_isFormat _)).bind fun _ => heach).congr
  rw [conforms_list hitems, and_iff_right hadmitted]

theorem decides_map (entries : Entries) (path : String) :
    Decides Thrown.IsFormat (Conforms (dart runtime) schema (.map entries))
      (validate runtime (.map entries) schema path) := by
  have hvalue := checkValue_decides runtime checked.type (.map entries) path
  rw [validate]
  refine hvalue.bind_of Conforms.admitted fun hadmitted => ?_
  obtain ⟨properties, hproperties, hfalse, hsub, hrequired⟩ :=
    checked.object (hadmitted.object runtime)
  obtain ⟨names, hnames, hstrings⟩ := isRequired_names hrequired
  have hmaps : ∀ entry ∈ properties, ∃ sub, entry.2 = .map sub := by
    intro entry hentry
    obtain ⟨sub, hmap, -⟩ := hsub entry hentry
    exact ⟨sub, hmap⟩
  have hnamed : Decides Thrown.IsFormat (∀ name ∈ names, isKeyIn entries name)
      (checkRequired runtime entries names path) :=
    decides_each fun name _ => decides_check (format_isFormat _)
  -- every key has been found among the properties before its value is looked at
  have heach : (∀ entry ∈ entries, Entries.containsKey properties entry.1) →
      Decides Thrown.IsFormat (∀ entry ∈ entries, ∀ sub,
        Entries.get properties entry.1 = .map sub → Conforms (dart runtime) sub entry.2)
        (validateEntries runtime entries properties path) := by
    intro hknown
    rw [validateEntries_eq]
    apply decides_each
    intro entry hentry
    obtain ⟨sub, hget, hmem⟩ := get_map_of_containsKey hmaps (hknown entry hentry)
    obtain ⟨sub', hmap, hchecked⟩ := hsub _ hmem
    cases hmap
    rw [hget]
    apply (ih sub hchecked entry.2 _).congr
    constructor
    · rintro hconforms _ ⟨⟩
      exact hconforms
    · exact fun hall => hall sub rfl
  rw [hproperties, hnames]
  have hconforms : Conforms (dart runtime) schema (.map entries) ↔ _ :=
    conforms_map hproperties hfalse hnames hstrings
  rw [and_iff_right hadmitted] at hconforms
  refine Decides.congr ?_ hconforms.symm
  refine (decides_check (format_isFormat _)).bind fun hknown => ?_
  exact hnamed.bind fun _ => heach hknown

end Parts

/-- A checked schema is decided at every value: the subschemas have been checked one level
further down. -/
theorem validate_decides (levels : ℕ) : ∀ schema, checkSchema levels schema = .ok () →
    ∀ value path, Decides Thrown.IsFormat (Conforms (dart runtime) schema value)
      (validate runtime value schema path) := by
  induction levels with
  | zero => exact fun schema h => nomatch h
  | succ levels ih =>
    intro schema h value path
    have checked := checkSchema_checked h
    have hvalue := checkValue_decides runtime checked.type value path
    cases value with
    | string value => exact decides_string runtime checked value path
    | list items => exact decides_list runtime checked ih items path
    | map entries => exact decides_map runtime checked ih entries path
    | _ =>
      rw [validate]
      · exact decides_plain runtime checked (by simp) (by simp) (by simp) path
      all_goals nofun

/-- Validation against a schema that was accepted returns exactly for the values that conform to
it, and it throws nothing but a `FormatException`. -/
theorem validate_exact {schema : Entries} (h : construct schema = .ok ()) (value : Value) :
    (validate runtime value schema "arguments" = .ok () ↔ Conforms (dart runtime) schema value) ∧
      ∀ e, validate runtime value schema "arguments" = .error e → ∃ message, e = .format message :=
  have hdecides := validate_decides runtime 9 schema h value "arguments"
  ⟨hdecides.ok_iff, hdecides.refused⟩

/-! ## The standard's own notions -/

mutual

/-- Equality of two documents, in which the order of the entries does not matter. -/
def structural : Value → Value → Bool
  | .null, .null => true
  | .bool a, .bool b => a == b
  | .string a, .string b => a == b
  | .list a, .list b => structuralItems a b
  | .map a, .map b => a.length == b.length && structuralEntries a b
  | a, b =>
    match a.number, b.number with
    | some x, some y => x == y
    | _, _ => false

def structuralItems : List Value → List Value → Bool
  | [], [] => true
  | a :: as, b :: bs => structural a b && structuralItems as bs
  | _, _ => false

def structuralEntries : List (String × Value) → Entries → Bool
  | [], _ => true
  | (key, a) :: rest, entries =>
    entries.containsKey key && structural a (entries.get key) && structuralEntries rest entries

end

/-- Lengths in characters, integers by their value, and equal documents. -/
def standard : Meaning where
  length := String.length
  integer value := ∃ x, value.number = some x ∧ x.den = 1
  equal a b := structural a b

/-- No two lists or maps are one object. -/
def decoded : Runtime where
  identical _ _ := false
  toText _ := ""

def nameSchema : Entries := [("type", .string "string"), ("minLength", .int 2)]

def pairSchema : Entries :=
  [("type", .string "array"), ("items", .map [("type", .string "integer")]),
    ("enum", .list [.list [.int 1, .int 2]])]

def countSchema : Entries := [("type", .string "integer"), ("maximum", .int 3)]

theorem validate_exact_name :
    (validate decoded (.string "ab") nameSchema "arguments" = .ok () ↔
      Conforms (dart decoded) nameSchema (.string "ab")) ∧
      ∀ e, validate decoded (.string "ab") nameSchema "arguments" = .error e →
        ∃ message, e = .format message :=
  validate_exact decoded (by decide +kernel) (.string "ab")

/-- A character outside the basic plane has two units, a list does not equal its copy, and a number
written with a fraction is not an integer. -/
theorem standard_differs :
    (construct nameSchema = .ok () ∧ construct pairSchema = .ok () ∧
      construct countSchema = .ok ()) ∧
    (validate decoded (.string "😀") nameSchema "arguments" = .ok () ∧
      ¬Conforms standard nameSchema (.string "😀")) ∧
    (validate decoded (.list [.int 1, .int 2]) pairSchema "arguments" ≠ .ok () ∧
      Conforms standard pairSchema (.list [.int 1, .int 2])) ∧
    (validate decoded (.double 1) countSchema "arguments" ≠ .ok () ∧
      Conforms standard countSchema (.double 1)) := by
  refine ⟨by decide +kernel, ⟨by decide +kernel, ?_⟩, ⟨by decide +kernel, ?_⟩,
    ⟨by decide +kernel, ?_⟩⟩
  · rintro ⟨-, -, -, -, -, hleast, -, -, -, -, -⟩
    exact absurd (hleast "😀" rfl) (by decide +kernel)
  · have hinteger : ∀ n, Conforms standard [("type", .string "integer")] (.int n) := by
      intro n
      apply (conforms_plain (by simp) (by simp) (by simp)).mpr
      refine ⟨⟨⟨"integer", rfl, ?_⟩, nofun⟩, nofun, nofun⟩
      simp [Meaning.hasType, standard, Value.number]
    apply (conforms_list rfl).mpr
    refine ⟨⟨⟨"array", rfl, ?_⟩, ?_⟩, by decide, ?_⟩
    · simp [Meaning.hasType]
    · rintro allowed ⟨⟩
      have hequal : structural (.list [.int 1, .int 2]) (.list [.int 1, .int 2]) := by
        decide +kernel
      exact ⟨_, List.mem_singleton_self _, hequal⟩
    · intro item hitem
      simp only [List.mem_cons, List.not_mem_nil, or_false] at hitem
      rcases hitem with rfl | rfl
      · exact hinteger 1
      · exact hinteger 2
  · apply (conforms_plain (by simp) (by simp) (by simp)).mpr
    refine ⟨⟨⟨"integer", rfl, ?_⟩, nofun⟩, nofun, ?_⟩
    · simp [Meaning.hasType, standard, Value.number]
    · rintro x high ⟨⟩ ⟨⟩
      decide +kernel

end AssistantSchema
end ProjectArgo.Assistant
