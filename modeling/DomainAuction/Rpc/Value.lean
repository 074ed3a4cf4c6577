import DomainAuction.Bytes.Endian

/-!
# Value — what nodes and their clients send each other

Requests and replies are made of nested lists and records. A reader takes one of them apart and
gives up when it has another shape. A record may also be sent as the list of its values, in the
order in which its fields are declared; sent with names, a field that is missing reads as null, and
fields that nobody asks for do no harm.
-/

namespace DomainAuction.Rpc

/-- A value as it is sent. Numbers that are no integers are not told apart. -/
inductive Value where
  | null
  | flag (b : Bool)
  | integer (n : Int)
  | fraction
  | text (s : String)
  | list (items : List Value)
  | record (fields : List (String × Value))
  deriving Inhabited

namespace Value

variable {α : Type}

def ofNat (n : Nat) : Value := integer n

/-! ## Readers -/

def text? : Value → Option String
  | text s => some s
  | _ => none

def flag? : Value → Option Bool
  | flag b => some b
  | _ => none

/-- An integer from `low` up to but not including `high`. -/
def between? (low high : Int) : Value → Option Int
  | integer n => if low ≤ n ∧ n < high then some n else none
  | _ => none

def u8? (v : Value) : Option UInt8 :=
  (between? 0 256 v).map fun n => .ofNat n.toNat

def u32? (v : Value) : Option UInt32 :=
  (between? 0 4294967296 v).map fun n => .ofNat n.toNat

def u64? (v : Value) : Option UInt64 :=
  (between? 0 18446744073709551616 v).map fun n => .ofNat n.toNat

def i64? (v : Value) : Option Int64 :=
  (between? (-9223372036854775808) 9223372036854775808 v).map .ofInt

/-- Null, or what the reader reads. -/
def nullable (read : Value → Option α) : Value → Option (Option α)
  | null => some none
  | v => (read v).map some

/-- A list of what the reader reads. -/
def listOf (read : Value → Option α) : Value → Option (List α)
  | list items => items.mapM read
  | _ => none

/-- Says only that something is there. -/
def nothing? : Value → Option Unit
  | null => some ()
  | _ => none

/-- The same, where an empty record will do as well. -/
def hollow? : Value → Option Unit
  | null | record [] => some ()
  | _ => none

/-- A name, by itself or in a record with nothing behind it. -/
def nameBefore? (nothing : Value → Option Unit) : Value → Option String
  | text name => some name
  | record [(name, content)] => (nothing content).map fun _ => name
  | _ => none

/-- One of several names. -/
def name? : Value → Option String :=
  nameBefore? nothing?

/-- One of several cases, each with what belongs to it. -/
def case? : Value → Option (String × Value)
  | record [(name, content)] => some (name, content)
  | _ => none

/-! ## Records -/

/-- The fields of a record by their names. -/
structure Fields where
  named : List (String × Value)

/-- The fields of a record that was sent with their names. -/
def namedFields? : Value → Option Fields
  | record fields => some ⟨fields⟩
  | _ => none

/-- The fields of a record. Sent as a list, it has a value for each name, except that as many as
`spare` may be left off at the end. -/
def fields? (names : List String) (spare : Nat) : Value → Option Fields
  | record fields => some ⟨fields⟩
  | list items =>
    if items.length ≤ names.length ∧ names.length ≤ items.length + spare then
      some ⟨names.zip items⟩
    else none
  | _ => none

/-- The field of a record, read. -/
def Fields.get? (fields : Fields) (name : String) (read : Value → Option α) : Option α :=
  read ((fields.named.lookup name).getD null)

end Value

end DomainAuction.Rpc
