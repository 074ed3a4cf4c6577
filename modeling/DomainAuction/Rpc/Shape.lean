import DomainAuction.Rpc.Value

/-!
# Shape — what values look like

A shape is a test for values whose content nobody needs. Shapes are built from the readers: of
records, lists and names, and of values that may be missing.
-/

namespace DomainAuction.Rpc

/-- A test for values. -/
abbrev Shape := Value → Bool

namespace Shape

/-- Whatever a reader reads. -/
def read {α : Type} (reader : Value → Option α) : Shape := fun v => (reader v).isSome

def any : Shape := fun _ => true

def text : Shape := read Value.text?

def flag : Shape := read Value.flag?

def u8 : Shape := read Value.u8?

def u32 : Shape := read Value.u32?

def u64 : Shape := read Value.u64?

def i64 : Shape := read Value.i64?

/-- Any number, whole or not. -/
def number : Shape
  | .integer _ | .fraction => true
  | _ => false

def either (shapes : List Shape) : Shape := fun v => shapes.any fun shape => shape v

/-- A list of any length. -/
def list (shape : Shape) : Shape
  | .list items => items.all shape
  | _ => false

def pair (first second : Shape) : Shape
  | .list [a, b] => first a && second b
  | _ => false

/-- One of some names, as a reader of names reads it. -/
def nameIn (reader : Value → Option String) (names : List String) : Shape := fun v =>
  (reader v).any names.contains

/-! ## Records -/

/-- Whether a field must be there. -/
inductive Presence where
  | needed
  /-- The field may be null, or missing if the fields are sent with their names. -/
  | nullable
  /-- The field may be null or missing. -/
  | spare
  deriving DecidableEq

/-- A field of a record: its name, whether it must be there, and its shape. -/
structure Field where
  name : String
  presence : Presence
  shape : Shape

def Field.needed (name : String) (shape : Shape) : Field := ⟨name, .needed, shape⟩

def Field.nullable (name : String) (shape : Shape) : Field := ⟨name, .nullable, shape⟩

def Field.spare (name : String) (shape : Shape) : Field := ⟨name, .spare, shape⟩

/-- Whether the field is as it should be. -/
def Field.fits (field : Field) (fields : Value.Fields) : Bool :=
  match fields.named.lookup field.name with
  | none => field.presence != .needed
  | some .null => field.presence != .needed || field.shape .null
  | some v => field.shape v

/-- The fields of a record, if each is as it should be. Spare fields come last. -/
def fields? (layout : List Field) (v : Value) : Option Value.Fields := do
  let spare := layout.countP (·.presence = .spare)
  let fields ← v.fields? (layout.map (·.name)) spare
  if layout.all (·.fits fields) then some fields else none

def record (layout : List Field) : Shape := fun v => (fields? layout v).isSome

end Shape

end DomainAuction.Rpc
