import DomainAuction.Proofs.Packing.Fields

/-!
# Framing — fields that tell where they end

Values are written one behind the other into one buffer, with nothing between them. Each field tells
by its own bytes where it ends, so reads of the same fields in the same order find every value
again, and each read stops where the write stopped, whatever stands behind. So the bytes of a row of
values are those of no other row of the same fields, nor the front of one.
-/

namespace DomainAuction

/-! ## Rows of writes and of reads -/

/-- A value together with the field that it is written as. -/
structure Entry where
  field : Field
  value : field.Value

namespace Entry

/-- The field has room for the value. -/
def Fits (e : Entry) : Prop := e.field.Fits e.value

def bytes (e : Entry) : Bytes := e.field.write e.value

/-- Writes an entry behind what a buffer holds. -/
def appendTo (buffer : Bytes) (e : Entry) : Bytes := buffer ++ e.bytes

end Entry

/-- What a row of writes leaves in an empty buffer. -/
def written (entries : List Entry) : Bytes := entries.foldl Entry.appendTo []

/-- What one read of a row finds, and how many bytes it leaves. -/
structure Found where
  entry : Entry
  remaining : Nat

/-- Reads fields one behind the other, and looks behind each how many bytes are left. -/
def Reader.row : List Field → Reader (List Found)
  | [] => return []
  | f :: fs => do
    let value ← f.read
    let remaining := (← get).length
    return ⟨⟨f, value⟩, remaining⟩ :: (← row fs)

/-! ## Writing -/

theorem foldl_appendTo (entries : List Entry) (buffer : Bytes) :
    entries.foldl Entry.appendTo buffer = buffer ++ entries.flatMap Entry.bytes := by
  induction entries generalizing buffer with
  | nil => exact (List.append_nil buffer).symm
  | cons e es ih =>
    rw [List.foldl_cons, ih, List.flatMap_cons, Entry.appendTo, List.append_assoc]

/-- The later writes do not touch the earlier ones. -/
@[simp] theorem written_cons (e : Entry) (es : List Entry) :
    written (e :: es) = e.bytes ++ written es := by
  simp only [written, foldl_appendTo, List.nil_append, List.flatMap_cons]

/-! ## Reading -/

/-- What reads find in the bytes of a row of writes with other bytes behind. -/
def found (entries : List Entry) (rest : Bytes) : List Found :=
  entries.mapIdx fun j e => ⟨e, (written (entries.drop (j + 1))).length + rest.length⟩

theorem found_cons (e : Entry) (es : List Entry) (rest : Bytes) :
    found (e :: es) rest = ⟨e, (written es ++ rest).length⟩ :: found es rest := by
  simp only [found, List.mapIdx_cons, List.drop_succ_cons, List.drop_zero, List.length_append]

theorem map_entry_found (entries : List Entry) (rest : Bytes) :
    (found entries rest).map Found.entry = entries := by
  induction entries with
  | nil => rfl
  | cons e es ih => rw [found_cons, List.map_cons, ih]

namespace Reader

open Running

variable {fields : List Field} {input rest : Bytes} {finds : List Found}

theorem row_cons_eq_ok_iff {f : Field} :
    row (f :: fields) input = .ok finds rest
      ↔ ∃ value mid later, f.read input = .ok value mid ∧ row fields mid = .ok later rest
        ∧ finds = ⟨⟨f, value⟩, mid.length⟩ :: later := by
  show (do
    let value ← f.read
    let remaining := (← get).length
    return ⟨⟨f, value⟩, remaining⟩ :: (← row fields) : Reader (List Found)) input = .ok finds rest ↔ _
  simp only [bind_eq_ok_iff, get_bind_apply, pure_eq_ok_iff]
  constructor
  · rintro ⟨value, mid, hvalue, later, tail, hlater, rfl, rfl⟩
    exact ⟨value, mid, later, hvalue, hlater, rfl⟩
  · rintro ⟨value, mid, later, hvalue, hlater, rfl⟩
    exact ⟨value, mid, hvalue, later, rest, hlater, rfl, rfl⟩

/-- **Reads in a row succeed on the bytes of a row of writes**, and on no others. -/
theorem row_eq_ok_iff : row fields input = .ok finds rest
    ↔ ∃ entries, entries.map Entry.field = fields ∧ (∀ e ∈ entries, e.Fits)
      ∧ input = written entries ++ rest ∧ finds = found entries rest := by
  -- each read hands its rest on to the next, so the input is not fixed
  induction fields generalizing input finds with
  | nil =>
    rw [row, pure_eq_ok_iff]
    constructor
    · rintro ⟨rfl, rfl⟩
      exact ⟨[], rfl, List.forall_mem_nil _, rfl, rfl⟩
    · rintro ⟨entries, hfields, -, rfl, rfl⟩
      obtain rfl := List.map_eq_nil_iff.1 hfields
      exact ⟨rfl, rfl⟩
  | cons f fs ih =>
    rw [row_cons_eq_ok_iff]
    constructor
    · rintro ⟨value, mid, later, hvalue, hlater, rfl⟩
      obtain ⟨es, rfl, hfits, rfl, rfl⟩ := ih.1 hlater
      obtain ⟨hfit, rfl⟩ := Field.read_eq_ok_iff.1 hvalue
      refine ⟨⟨f, value⟩ :: es, rfl, List.forall_mem_cons.2 ⟨hfit, hfits⟩, ?_, ?_⟩
      · rw [written_cons, List.append_assoc, Entry.bytes]
      · rw [found_cons]
    · rintro ⟨entries, hfields, hfits, rfl, rfl⟩
      obtain ⟨⟨g, value⟩, es, rfl, rfl, rfl⟩ := List.map_eq_cons_iff.1 hfields
      obtain ⟨hfit, hfits⟩ := List.forall_mem_cons.1 hfits
      refine ⟨value, written es ++ rest, found es rest, ?_, ih.2 ⟨es, rfl, hfits, rfl, rfl⟩, ?_⟩
      · rw [written_cons, List.append_assoc]
        exact Field.read_eq_ok_iff.2 ⟨hfit, rfl⟩
      · rw [found_cons]

end Reader

/-! ## Both together -/

/-- **Fields in a row tell where they end.** Reads of the fields that were written, in their order,
find every value and leave the bytes of the later writes and what stands behind; at the end nothing
may be left exactly if nothing stands behind. A row of the same fields whose bytes are the same, or
become the same with more behind, is the same row with the same behind it. -/
theorem row_of_written {entries : List Entry} (hfits : ∀ e ∈ entries, e.Fits) (rest : Bytes) :
    Reader.row (entries.map Entry.field) (written entries ++ rest)
      = .ok (entries.mapIdx fun j e =>
          ⟨e, (written (entries.drop (j + 1))).length + rest.length⟩) rest ∧
    ((∃ finds, Reader.value
        (do let finds ← Reader.row (entries.map Entry.field); Reader.finish; return finds)
        (written entries ++ rest) = .ok finds) ↔ rest = []) ∧
    (∀ (others : List Entry) (rest' : Bytes), others.map Entry.field = entries.map Entry.field →
      (∀ e ∈ others, e.Fits) → written others ++ rest' = written entries ++ rest →
      others = entries ∧ rest' = rest) := by
  have hread : Reader.row (entries.map Entry.field) (written entries ++ rest)
      = .ok (found entries rest) rest := Reader.row_eq_ok_iff.2 ⟨entries, rfl, hfits, rfl, rfl⟩
  refine ⟨hread, ?_, fun others rest' hfields hothers hbytes => ?_⟩
  · simp only [Reader.value_finish_eq_ok_iff, hread, EStateM.Result.ok.injEq]
    exact ⟨fun ⟨_, _, hrest⟩ => hrest, fun hrest => ⟨_, rfl, hrest⟩⟩
  · -- one run of reads, of which both rows are the outcome
    have hread' : Reader.row (entries.map Entry.field) (written entries ++ rest)
        = .ok (found others rest') rest' :=
      Reader.row_eq_ok_iff.2 ⟨others, hfields, hothers, hbytes.symm, rfl⟩
    rw [hread] at hread'
    obtain ⟨hfound, hrest⟩ := EStateM.Result.ok.inj hread'
    have hentries := congrArg (List.map Found.entry) hfound
    rw [map_entry_found, map_entry_found] at hentries
    exact ⟨hentries.symm, hrest.symm⟩

/-- A row with a text of two bytes and an optional number that is there once. -/
def mixedRow : List Entry :=
  [⟨.u32, (7 : UInt32)⟩, ⟨.text, "é"⟩, ⟨.optionalU64, none⟩, ⟨.optionalU64, some (258 : UInt64)⟩,
   ⟨.u64, (1 : UInt64)⟩]

/-- The row is read back with two bytes behind it, which are left over, so the end is not reached. -/
theorem row_of_written_mixed :
    written mixedRow = [7, 0, 0, 0, 2, 0, 0, 0, 195, 169, 0, 1, 2, 1, 0, 0, 0, 0, 0, 0,
      1, 0, 0, 0, 0, 0, 0, 0] ∧
    (∃ finds, Reader.row [.u32, .text, .optionalU64, .optionalU64, .u64]
        (written mixedRow ++ [5, 6]) = .ok finds [5, 6] ∧
      finds.map Found.entry = mixedRow ∧ finds.map Found.remaining = [26, 20, 19, 10, 2]) ∧
    ¬ ∃ finds, Reader.value (do
      let finds ← Reader.row [.u32, .text, .optionalU64, .optionalU64, .u64]
      Reader.finish
      return finds) (written mixedRow ++ [5, 6]) = .ok finds := by
  have hfits : ∀ e ∈ mixedRow, e.Fits := by
    simp only [mixedRow, List.forall_mem_cons]
    exact ⟨trivial, (by decide +kernel : (utf8 "é").length < 2 ^ 32), trivial, trivial, trivial,
      List.forall_mem_nil _⟩
  obtain ⟨hread, hfinish, -⟩ := row_of_written hfits [5, 6]
  refine ⟨by decide +kernel, ⟨_, hread, map_entry_found mixedRow _, by decide +kernel⟩, ?_⟩
  intro hfinished
  exact absurd (hfinish.1 hfinished) (List.cons_ne_nil _ _)

end DomainAuction
