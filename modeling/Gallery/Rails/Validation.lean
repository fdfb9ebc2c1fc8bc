import Gallery.Rails.Values
import Mathlib.Data.List.Basic

/-!
# Validations and columns

A model file lists validations, the schema lists columns, and the two describe
the same record. A record that passes its validations is stored if PostgreSQL
accepts the value of each column. For most columns that follows from a
validation or from where the value comes from; the others are `unbounded`.

## Main definitions

* `Cell`, `Attributes` — the attribute values of a record
* `Validation.passes`, `ColumnType.accepts` — the two descriptions
* `Model.unbounded` — the columns whose values nothing keeps in bounds

## Main results

* `Model.accepts_iff` — a valid record is stored exactly if its unbounded columns fit
-/

namespace Gallery.Rails

/-- The value of an attribute, cast to the type of its column. -/
inductive Cell
  | null
  | integer (n : ℤ)
  | text (s : String)
deriving DecidableEq, Repr

namespace Cell

def blank? : Cell → Bool
  | null => true
  | integer _ => false
  | text s => Rails.blank? s

/-- The length a length validation compares; `nil` counts as the empty string. -/
def length : Cell → ℕ
  | null => 0
  | integer n => (toString n).length
  | text s => s.length

def ofInteger (n : Option ℤ) : Cell := n.elim null integer

def ofText (s : Option String) : Cell := s.elim null text

@[simp] theorem blank?_integer (n : ℤ) : (integer n).blank? = false := rfl

@[simp] theorem blank?_ofInteger (n : Option ℤ) : (ofInteger n).blank? = n.isNone := by
  cases n <;> rfl

@[simp] theorem blank?_ofText (s : Option String) : (ofText s).blank? = !present? s := by
  cases s <;> simp [ofText, blank?, present?]

end Cell

/-- The attributes of a record under their names. -/
abbrev Attributes := String → Cell

def Attributes.ofList (cells : List (String × Cell)) : Attributes :=
  fun name => (cells.lookup name).getD .null

@[simp] theorem Attributes.ofList_cons (name attr : String) (v : Cell)
    (cells : List (String × Cell)) :
    Attributes.ofList ((attr, v) :: cells) name =
      if name = attr then v else Attributes.ofList cells name := by
  by_cases h : name = attr
  · simp [Attributes.ofList, h]
  · simp [Attributes.ofList, List.lookup_cons, beq_eq_false_iff_ne.mpr h, h]

/-- The column types of the schema. -/
inductive ColumnType
  | integer
  /-- `varchar(255)` -/
  | string
  | text
deriving DecidableEq, Repr

/-- PostgreSQL accepts the value for a column of the type. -/
def ColumnType.accepts : ColumnType → Cell → Bool
  | _, .null => true
  | .integer, .integer n => fitsInteger n
  | .string, .text s => fitsString s
  | .text, .text _ => true
  | _, _ => false

/-- Where the value of a new record's column comes from. -/
inductive Supply
  /-- The key of a stored row. -/
  | key
  /-- A request parameter, cast to the type of the column. -/
  | param
  /-- The name of a class of the application. -/
  | class_name (names : List String)
deriving DecidableEq, Repr

/-- The values a column can be supplied with; every column may stay empty. -/
def Supply.Gives : Supply → ColumnType → Cell → Prop
  | key, _, v => v = .null ∨ ∃ n, fitsInteger n ∧ v = .integer n
  | param, .integer, v => ∃ p, v = .ofInteger (assignInteger p)
  | param, .string, v => ∃ p, v = .ofText p
  | param, .text, v => ∃ p, v = .ofText p
  | class_name names, _, v => v = .null ∨ ∃ s ∈ names, v = .text s

structure Column where
  name : String
  type : ColumnType
  supply : Supply
deriving DecidableEq, Repr

/-- The kinds of validation the model files use. -/
inductive Validation
  | presence (attr : String)
  | length (attr : String) (minimum maximum : ℕ)
  | uniqueness (attr : String) (scope : List String)
deriving DecidableEq, Repr

/-- `rows` are the stored records of the model. -/
def Validation.passes (rows : List Attributes) (a : Attributes) : Validation → Bool
  | presence attr => !(a attr).blank?
  | length attr minimum maximum => minimum ≤ (a attr).length && (a attr).length ≤ maximum
  | uniqueness attr scope => !rows.any fun r => (attr :: scope).all fun name => r name = a name

/-- A length validation that keeps the attribute within a `string` column. -/
def Validation.limits (name : String) : Validation → Bool
  | length attr _ maximum => attr = name && maximum ≤ 255
  | _ => false

/-- A model: the columns of its table that a record is given, and its validations. -/
structure Model where
  columns : List Column
  validations : List Validation

namespace Model

variable {m : Model} {rows : List Attributes} {a : Attributes} {c : Column}

def valid (m : Model) (rows : List Attributes) (a : Attributes) : Bool :=
  m.validations.all fun v => v.passes rows a

/-- PostgreSQL accepts the `INSERT`. -/
def accepts (m : Model) (a : Attributes) : Bool :=
  m.columns.all fun c => c.type.accepts (a c.name)

/-- The attributes come from where the model's columns get their values. -/
def Supplied (m : Model) (a : Attributes) : Prop :=
  ∀ c ∈ m.columns, c.supply.Gives c.type (a c.name)

/-- The supply of the column or a validation keeps its values in bounds. -/
def bounded (m : Model) (c : Column) : Bool :=
  match c.type, c.supply with
  | .integer, .key => true
  | .text, .param => true
  | .string, .param => m.validations.any fun v => v.limits c.name
  | .string, .class_name names => names.all fitsString
  | _, _ => false

def unbounded (m : Model) : List Column := m.columns.filter fun c => !m.bounded c

/-- A length validation of at most 255 keeps a text within a `string` column. -/
theorem fits_of_limits {v : Validation} {name s : String} (hlimits : v.limits name)
    (hpasses : v.passes rows a) (hs : a name = .text s) : fitsString s := by
  cases v with
  | length attr minimum maximum =>
    obtain ⟨rfl, hmax⟩ : attr = name ∧ maximum ≤ 255 := by simpa [Validation.limits] using hlimits
    have hle : s.length ≤ maximum := by
      simpa [hs, Cell.length] using (Bool.and_eq_true_iff.mp hpasses).2
    exact decide_eq_true (le_trans hle hmax)
  | presence attr => cases hlimits
  | uniqueness attr scope => cases hlimits

/-- PostgreSQL accepts what a bounded column of a valid record holds. -/
theorem accepts_of_bounded (hvalid : m.valid rows a) (hbounded : m.bounded c)
    (hgives : c.supply.Gives c.type (a c.name)) : c.type.accepts (a c.name) := by
  obtain ⟨name, type, supply⟩ := c
  -- four kinds of columns are bounded; the others are taken from the request as they are
  cases type <;> cases supply <;> simp only [bounded, Bool.false_eq_true] at hbounded
  case integer.key =>
    rcases hgives with hnull | ⟨n, hn, hv⟩
    · simp [hnull, ColumnType.accepts]
    · simpa [hv, ColumnType.accepts] using hn
  case string.param =>
    obtain ⟨v, hv, hlimits⟩ := List.any_eq_true.mp hbounded
    obtain ⟨_ | s, hp⟩ := hgives
    · simp [hp, Cell.ofText, ColumnType.accepts]
    · have hpasses := List.all_eq_true.mp hvalid v hv
      simpa [hp, Cell.ofText, ColumnType.accepts] using fits_of_limits hlimits hpasses hp
  case string.class_name names =>
    rcases hgives with hnull | ⟨s, hs, hv⟩
    · simp [hnull, ColumnType.accepts]
    · simpa [hv, ColumnType.accepts] using List.all_eq_true.mp hbounded s hs
  case text.param =>
    obtain ⟨_ | s, hp⟩ := hgives
    · simp [hp, Cell.ofText, ColumnType.accepts]
    · simp [hp, Cell.ofText, ColumnType.accepts]

/-- PostgreSQL accepts a valid record exactly if it accepts its unbounded columns. -/
theorem accepts_iff (hsupplied : m.Supplied a) (hvalid : m.valid rows a) :
    m.accepts a ↔ ∀ c ∈ m.unbounded, c.type.accepts (a c.name) := by
  constructor
  · intro haccepts c hc
    exact List.all_eq_true.mp haccepts c (List.mem_of_mem_filter hc)
  · intro hunbounded
    refine List.all_eq_true.mpr fun c hc => ?_
    rcases Bool.eq_false_or_eq_true (m.bounded c) with hbounded | hbounded
    · exact accepts_of_bounded hvalid hbounded (hsupplied c hc)
    · exact hunbounded c (List.mem_filter.mpr ⟨hc, by simp [hbounded]⟩)

end Model

end Gallery.Rails
