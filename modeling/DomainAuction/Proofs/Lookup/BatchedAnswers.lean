import DomainAuction.Proofs.Lookup.Snapshot
import DomainAuction.Proofs.Node.Dialogues

/-!
# BatchedAnswers — the data of all accounts, or of none

A long list of accounts is asked for in slices. A node may answer each of them as it likes, or not
at all. The first answer that is missing or has another number of entries than the slice ends the
whole fetch, with a failure. When there is no such answer, all the entries are handed over, each at
the place of its address: a slice that is too short or too long can move no entry of a later one.
-/

namespace DomainAuction

/-! ## Slices -/

section Slices

variable {α β : Type} {size : Nat} {xs : List α} {slices : List (List α)}

/-- Consecutive slices of a list: all have the same size but the last, which may be smaller, and
none is empty. -/
structure Slices (size : Nat) (xs : List α) (slices : List (List α)) : Prop where
  flatten : slices.flatten = xs
  full : ∀ slice ∈ slices.dropLast, slice.length = size
  filled : ∀ slice ∈ slices, 0 < slice.length ∧ slice.length ≤ size

theorem batches_nil : batches ([] : List α) = [] := by
  rw [batches, List.isEmpty_nil, if_pos rfl]

theorem length_pos_of_mem_batches {slice : List α} (h : slice ∈ batches xs) : 0 < slice.length := by
  induction xs using batches.induct with
  | case1 xs hempty =>
    rw [batches, if_pos hempty] at h
    cases h
  | case2 xs hempty ih =>
    rw [batches, if_neg hempty] at h
    rcases List.mem_cons.1 h with rfl | h
    · have hpos : xs.length ≠ 0 := by simpa using hempty
      rw [List.length_take, batchSize]
      omega
    · exact ih h

/-- A batch with another one behind it is full. -/
theorem length_of_mem_dropLast_batches {slice : List α} (h : slice ∈ (batches xs).dropLast) :
    slice.length = batchSize := by
  induction xs using batches.induct with
  | case1 xs hempty =>
    rw [batches, if_pos hempty] at h
    cases h
  | case2 xs hempty ih =>
    rw [batches, if_neg hempty] at h
    cases hrest : batches (xs.drop batchSize) with
    | nil =>
      rw [hrest] at h
      cases h
    | cons next rest =>
      rw [hrest, List.dropLast_cons_of_ne_nil (List.cons_ne_nil next rest), ← hrest] at h
      rcases List.mem_cons.1 h with rfl | h
      · -- something is left for the next batch
        have hlen : batchSize ≤ xs.length := by
          rcases Nat.le_total batchSize xs.length with hle | hle
          · exact hle
          · rw [List.drop_eq_nil_of_le hle, batches_nil] at hrest
            cases hrest
        rw [List.length_take, Nat.min_eq_left hlen]
      · exact ih h

theorem slices_batches (xs : List α) : Slices batchSize xs (batches xs) where
  flatten := flatten_batches xs
  full _ := length_of_mem_dropLast_batches
  filled _ h := ⟨length_pos_of_mem_batches h, length_le_of_mem_batches h⟩

/-- **A place in a list is a place in one of its slices.** -/
theorem Slices.getElem?_eq (h : Slices size xs slices) (k : Nat) :
    xs[k]? = (slices[k / size]?).bind fun slice => slice[k % size]? := by
  obtain ⟨rfl, hfull, hfilled⟩ := h
  induction slices generalizing k with
  | nil => simp
  | cons slice rest ih =>
    obtain ⟨⟨hpos, hle⟩, hrest⟩ := List.forall_mem_cons.1 hfilled
    rw [List.flatten_cons]
    cases rest with
    | nil =>
      -- the last slice may end before the size does
      rw [List.flatten_nil, List.append_nil]
      by_cases hk : k < size
      · simp [Nat.div_eq_of_lt hk, Nat.mod_eq_of_lt hk]
      · have hdiv : 0 < k / size := Nat.div_pos (Nat.not_lt.1 hk) (by omega)
        rw [List.getElem?_eq_none (by omega), List.getElem?_eq_none hdiv]
        rfl
    | cons next rest =>
      rw [List.dropLast_cons_of_ne_nil (List.cons_ne_nil next rest)] at hfull
      obtain ⟨hlen, hfull⟩ := List.forall_mem_cons.1 hfull
      by_cases hk : k < size
      · rw [List.getElem?_append_left (by omega)]
        simp [Nat.div_eq_of_lt hk, Nat.mod_eq_of_lt hk]
      · have hge : size ≤ k := Nat.not_lt.1 hk
        rw [List.getElem?_append_right (by omega), hlen, ih _ hfull hrest,
          Nat.div_eq_sub_div (by omega) hge, List.getElem?_cons_succ, ← Nat.mod_eq_sub_mod hge]

/-- Lists of the same lengths are slices of the same size. -/
theorem Slices.of_lengths {others : List (List β)} (h : Slices size xs slices)
    (hlen : others.map List.length = slices.map List.length) :
    Slices size others.flatten others where
  flatten := rfl
  full other hother := by
    have hmem : other.length ∈ (slices.map List.length).dropLast := by
      rw [← hlen, ← List.map_dropLast]
      exact List.mem_map_of_mem hother
    rw [← List.map_dropLast, List.mem_map] at hmem
    obtain ⟨slice, hslice, heq⟩ := hmem
    rw [← heq, h.full slice hslice]
  filled other hother := by
    have hmem : other.length ∈ slices.map List.length := hlen ▸ List.mem_map_of_mem hother
    obtain ⟨slice, hslice, heq⟩ := List.mem_map.1 hmem
    rw [← heq]
    exact h.filled slice hslice

end Slices

/-! ## Answers about slices -/

namespace Node

variable {σ ε : Type}

/-- The node answers about these slices one after the other, each time about as many accounts as it
was asked for. -/
structure Serves (node : Node σ ε) (s : σ) (answered : List (List Address × List (Option Bytes)))
    (s' : σ) : Prop where
  answers : node.Answers s (answered.map fun x => ⟨.accounts x.1, x.2⟩) s'
  counted : ∀ x ∈ answered, x.2.length = x.1.length

/-- The two ways in which a request for a slice fails, with what the failure says. -/
inductive Spoils (node : Node σ ε) (slice : List Address) (s : σ) : Failure ε → σ → Prop
  | unanswered (fault : ε) (s' : σ) :
    node.answer (.accounts slice) s = .error fault s' → Spoils node slice s ⟨[], .node fault⟩ s'
  | miscounted (data : List (Option Bytes)) (s' : σ) :
    node.answer (.accounts slice) s = .ok data s' → data.length ≠ slice.length →
    Spoils node slice s ⟨[], .miscounted slice.length data.length⟩ s'

variable {node : Node σ ε} {addresses slice : List Address} {s s' : σ} {asked asked' : List Request}
variable {answered : List (List Address × List (Option Bytes))} {data : List (Option Bytes)}
variable {failure : Failure ε}

theorem recorded_serves_iff : node.recorded.Serves (s, asked) answered (s', asked')
    ↔ node.Serves s answered s' ∧ asked' = asked ++ (answered.map Prod.fst).map .accounts := by
  have hdialogue : (answered.map fun x => (⟨.accounts x.1, x.2⟩ : (q : Request) × q.Answer)).map
      Sigma.fst = (answered.map Prod.fst).map .accounts := by
    rw [List.map_map, List.map_map]
    rfl
  constructor
  · rintro ⟨hanswers, hcounted⟩
    obtain ⟨hanswers, hasked⟩ := recorded_answers_iff.1 hanswers
    exact ⟨⟨hanswers, hcounted⟩, hdialogue ▸ hasked⟩
  · rintro ⟨⟨hanswers, hcounted⟩, hasked⟩
    exact ⟨recorded_answers_iff.2 ⟨hanswers, hdialogue ▸ hasked⟩, hcounted⟩

theorem recorded_spoils_iff : node.recorded.Spoils slice (s, asked) failure (s', asked')
    ↔ node.Spoils slice s failure s' ∧ asked' = asked ++ [.accounts slice] := by
  constructor
  · intro h
    cases h with
    | unanswered fault _ herror =>
      obtain ⟨herror, hasked⟩ := recorded_eq_error_iff.1 herror
      exact ⟨.unanswered fault s' herror, hasked⟩
    | miscounted data _ hanswer hlen =>
      obtain ⟨hanswer, hasked⟩ := recorded_eq_ok_iff.1 hanswer
      exact ⟨.miscounted data s' hanswer hlen, hasked⟩
  · rintro ⟨h, hasked⟩
    cases h with
    | unanswered fault _ herror =>
      exact .unanswered fault _ (recorded_eq_error_iff.2 ⟨herror, hasked⟩)
    | miscounted data _ hanswer hlen =>
      exact .miscounted data _ (recorded_eq_ok_iff.2 ⟨hanswer, hasked⟩) hlen

/-! ### One slice -/

theorem batch_eq_ok_iff : node.batch slice s = .ok data s'
    ↔ ∃ answer : List (Option Bytes), node.answer (.accounts slice) s = .ok answer s'
      ∧ answer.length = slice.length ∧ data = answer := by
  constructor
  · intro h
    obtain ⟨answer, t, hask, hjudge⟩ := Running.bind_eq_ok_iff.1 h
    split at hjudge
    · next hlen =>
      obtain ⟨rfl, rfl⟩ := Running.pure_eq_ok_iff.1 hjudge
      exact ⟨_, ask_eq_ok_iff.1 hask, hlen, rfl⟩
    · exact absurd hjudge Running.throw_ne_ok
  · rintro ⟨answer, hanswer, hlen, rfl⟩
    refine (Running.bind_of_ok (ask_of_answer hanswer)).trans ?_
    rw [if_pos hlen]
    rfl

theorem batch_eq_error_iff : node.batch slice s = .error failure s'
    ↔ node.Spoils slice s failure s' := by
  constructor
  · intro h
    rcases Running.bind_eq_error_iff.1 h with hask | ⟨answer, t, hask, hjudge⟩
    · obtain ⟨fault, herror, rfl⟩ := ask_eq_error_iff.1 hask
      exact .unanswered fault s' herror
    · split at hjudge
      · exact absurd hjudge Running.pure_ne_error
      · next hlen =>
        obtain ⟨rfl, rfl⟩ := Running.throw_eq_error_iff.1 hjudge
        exact .miscounted answer t (ask_eq_ok_iff.1 hask) hlen
  · intro h
    cases h with
    | unanswered fault _ herror =>
      exact Running.bind_of_error (ask_eq_error_iff.2 ⟨fault, herror, rfl⟩)
    | miscounted answer _ hanswer hlen =>
      refine (Running.bind_of_ok (ask_of_answer hanswer)).trans ?_
      rw [if_neg hlen]
      rfl

/-! ### All slices -/

theorem mapM_batch_eq_ok_iff {slices : List (List Address)} {found : List (List (Option Bytes))} :
    slices.mapM node.batch s = .ok found s'
      ↔ ∃ answered, answered.map Prod.fst = slices ∧ node.Serves s answered s'
        ∧ found = answered.map Prod.snd := by
  rw [mapM_eq_ok_iff_answers .accounts (fun _ answer => answer)
    (fun slice answer => answer.length = slice.length) (fun _ answer => answer)
    fun slice s data s' => batch_eq_ok_iff]
  constructor
  · rintro ⟨answered, hslices, hanswers, hcounted, hfound⟩
    exact ⟨answered, hslices, ⟨hanswers, hcounted⟩, hfound⟩
  · rintro ⟨answered, hslices, ⟨hanswers, hcounted⟩, hfound⟩
    exact ⟨answered, hslices, hanswers, hcounted, hfound⟩

theorem accountsData_eq_ok_iff : node.accountsData addresses s = .ok data s'
    ↔ ∃ answered, answered.map Prod.fst = batches addresses ∧ node.Serves s answered s'
      ∧ data = (answered.map Prod.snd).flatten := by
  unfold accountsData
  rw [Running.bind_eq_ok_iff]
  constructor
  · rintro ⟨found, t, hfound, hpure⟩
    obtain ⟨answered, hslices, hserves, rfl⟩ := mapM_batch_eq_ok_iff.1 hfound
    obtain ⟨rfl, rfl⟩ := Running.pure_eq_ok_iff.1 hpure
    exact ⟨answered, hslices, hserves, rfl⟩
  · rintro ⟨answered, hslices, hserves, rfl⟩
    exact ⟨_, s', mapM_batch_eq_ok_iff.2 ⟨answered, hslices, hserves, rfl⟩, rfl⟩

theorem accountsData_eq_error_iff : node.accountsData addresses s = .error failure s'
    ↔ ∃ answered slice later t, batches addresses = answered.map Prod.fst ++ slice :: later
      ∧ node.Serves s answered t ∧ node.Spoils slice t failure s' := by
  unfold accountsData
  rw [Running.bind_eq_error_iff, Running.mapM_eq_error_iff]
  constructor
  · rintro (⟨done, slice, later, found, t, hsplit, hdone, hslice⟩ | ⟨found, t, -, hpure⟩)
    · obtain ⟨answered, rfl, hserves, -⟩ := mapM_batch_eq_ok_iff.1 hdone
      exact ⟨answered, slice, later, t, hsplit, hserves, batch_eq_error_iff.1 hslice⟩
    · exact absurd hpure Running.pure_ne_error
  · rintro ⟨answered, slice, later, t, hsplit, hserves, hspoils⟩
    exact .inl ⟨_, slice, later, _, t, hsplit,
      mapM_batch_eq_ok_iff.2 ⟨answered, rfl, hserves, rfl⟩, batch_eq_error_iff.2 hspoils⟩

/-- What is put together from answers of the right lengths lines up with the addresses, and nothing
else does. -/
theorem Serves.eq_flatten_iff (h : node.Serves s answered s')
    (hslices : answered.map Prod.fst = batches addresses) :
    data = (answered.map Prod.snd).flatten
      ↔ data.length = addresses.length
        ∧ ∀ k, data[k]? = (answered[k / 100]?).bind fun x => x.2[k % 100]? := by
  have hlengths : (answered.map Prod.snd).map List.length = (batches addresses).map List.length := by
    rw [← hslices, List.map_map, List.map_map]
    exact List.map_congr_left h.counted
  have hplaces (k : Nat) : (answered.map Prod.snd).flatten[k]?
      = (answered[k / 100]?).bind fun x => x.2[k % 100]? := by
    rw [((slices_batches addresses).of_lengths hlengths).getElem?_eq, List.getElem?_map,
      Option.bind_map]
    rfl
  have hlength : (answered.map Prod.snd).flatten.length = addresses.length := by
    rw [← flatten_batches addresses, List.length_flatten, List.length_flatten, hlengths]
  constructor
  · rintro rfl
    exact ⟨hlength, hplaces⟩
  · rintro ⟨-, hdata⟩
    exact List.ext_getElem? fun k => (hdata k).trans (hplaces k).symm

/-- **All or nothing, whatever the node does.** The addresses are asked for in slices of a hundred,
in order. The fetch succeeds if and only if the node answers about every slice with as many entries
as it has addresses, and the entries come back at the places of their addresses. It fails if and
only if a slice is answered otherwise or not at all; that slice is the last one asked for, and the
failure says what was wrong. -/
theorem accountsData_all_or_nothing (node : Node σ ε) (addresses : List Address) (s : σ) :
    Slices 100 addresses (batches addresses) ∧
    (∀ data s' asked, node.recorded.accountsData addresses (s, []) = .ok data (s', asked)
      ↔ ∃ answered, answered.map Prod.fst = batches addresses ∧ node.Serves s answered s'
        ∧ asked = (batches addresses).map .accounts ∧ data.length = addresses.length
        ∧ ∀ k, data[k]? = (answered[k / 100]?).bind fun x => x.2[k % 100]?) ∧
    (∀ failure s' asked, node.recorded.accountsData addresses (s, []) = .error failure (s', asked)
      ↔ ∃ answered slice later t, batches addresses = answered.map Prod.fst ++ slice :: later
        ∧ node.Serves s answered t ∧ node.Spoils slice t failure s'
        ∧ asked = (answered.map Prod.fst ++ [slice]).map .accounts) := by
  refine ⟨slices_batches addresses, fun data s' asked => ?_, fun failure s' asked => ?_⟩
  · rw [accountsData_eq_ok_iff]
    constructor
    · rintro ⟨answered, hslices, hserves, hdata⟩
      obtain ⟨hserved, rfl⟩ := recorded_serves_iff.1 hserves
      obtain ⟨hlength, hplaces⟩ := (hserved.eq_flatten_iff hslices).1 hdata
      exact ⟨answered, hslices, hserved, by rw [hslices, List.nil_append], hlength, hplaces⟩
    · rintro ⟨answered, hslices, hserves, rfl, hplaces⟩
      exact ⟨answered, hslices, recorded_serves_iff.2 ⟨hserves, by rw [hslices, List.nil_append]⟩,
        (hserves.eq_flatten_iff hslices).2 hplaces⟩
  · rw [accountsData_eq_error_iff]
    constructor
    · rintro ⟨answered, slice, later, ⟨t, asked'⟩, hsplit, hserves, hspoils⟩
      obtain ⟨hserved, rfl⟩ := recorded_serves_iff.1 hserves
      obtain ⟨hspoiled, rfl⟩ := recorded_spoils_iff.1 hspoils
      refine ⟨answered, slice, later, t, hsplit, hserved, hspoiled, ?_⟩
      rw [List.map_append, List.nil_append]
      rfl
    · rintro ⟨answered, slice, later, t, hsplit, hserves, hspoils, rfl⟩
      refine ⟨answered, slice, later, (t, (answered.map Prod.fst).map .accounts), hsplit,
        recorded_serves_iff.2 ⟨hserves, (List.nil_append _).symm⟩,
        recorded_spoils_iff.2 ⟨hspoils, ?_⟩⟩
      rw [List.map_append]
      rfl

end Node

end DomainAuction
