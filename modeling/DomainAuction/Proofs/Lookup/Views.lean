import DomainAuction.Proofs.Lookup.Records
import DomainAuction.Proofs.Node.Requests
import DomainAuction.Proofs.Record.Refusals

/-!
# Views — what the failure of a lookup says about the account

A view asks for one account and judges the answer. There are four answers: none at all, that there
is no account, data that do not decode, and data that do. A failure tells which of the first three
it was by the error that it carries inside all contexts: none, one that says that something was not
found, or the error of the decoder.
-/

namespace DomainAuction

variable {σ ε α β : Type}

/-! ## One answer, judged -/

/-- A continuation that asks nothing, and fails where `next` does. -/
structure Session.Judges (k : α → Session σ ε β) (next : α → Except AuctionError β) : Prop where
  ok_iff : ∀ a s b s', k a s = .ok b s' ↔ next a = .ok b ∧ s' = s
  fails_iff : ∀ a s e s', (k a).FailsWith s e s'
    ↔ ∃ error, next a = .error error ∧ e = some error ∧ s' = s

theorem Session.judges_ofExcept {next : α → Except AuctionError β} :
    Judges (fun a => (ofExcept (next a) : Session σ ε β)) next :=
  ⟨fun _ _ _ _ => ofExcept_eq_ok_iff, fun _ _ _ _ => failsWith_ofExcept_iff⟩

theorem Session.judges_pure {f : α → β} :
    Judges (fun a => (pure (f a) : Session σ ε β)) fun a => .ok (f a) where
  ok_iff a s b s' := by
    rw [Running.pure_eq_ok_iff, Except.ok.injEq, eq_comm (a := s)]
  fails_iff a s e s' := by
    simp [not_failsWith_pure]

namespace Node

variable (node : Node σ ε) (address : Address) (commitment : Commitment) (missing : AuctionError)

/-- The three ways in which a node does not show a record, with the error that a failure carries. -/
inductive Misses (decode : Bytes → Except AuctionError α) (s : σ) : Option AuctionError → σ → Prop
  | unreachable (fault : ε) (t : σ) :
    node.answer (.account address commitment) s = .error fault t → Misses decode s none t
  | absent (t : σ) :
    node.answer (.account address commitment) s = .ok none t → Misses decode s (some missing) t
  | undecodable (data : Bytes) (e : AuctionError) (t : σ) :
    node.answer (.account address commitment) s = .ok (some data) t → decode data = .error e →
    Misses decode s (some e) t

/-- A computation that asks for one account and goes by what `decode` makes of its data. -/
structure Reads (decode : Bytes → Except AuctionError α) (m : Session σ ε α) : Prop where
  ok_iff : ∀ s a s', m s = .ok a s'
    ↔ ∃ data, node.answer (.account address commitment) s = .ok (some data) s' ∧ decode data = .ok a
  fails_iff : ∀ s e s', m.FailsWith s e s' ↔ node.Misses address commitment missing decode s e s'

variable {node address commitment missing}

theorem fetch_reads :
    node.Reads address commitment missing .ok (node.fetch address commitment missing) where
  ok_iff s data s' := by
    rw [fetch_eq_ok_iff]
    simp
  fails_iff s e s' := by
    rw [fetch, Session.failsWith_bind_iff, Session.failsWith_ask_iff]
    constructor
    · rintro (⟨rfl, fault, h⟩ | ⟨answer, t, h, hthrow⟩)
      · exact .unreachable fault s' h
      · cases answer with
        | none =>
          obtain ⟨rfl, rfl⟩ := Session.failsWith_throw_iff.1 hthrow
          exact .absent t (ask_eq_ok_iff.1 h)
        | some data => exact absurd hthrow Session.not_failsWith_pure
    · intro h
      cases h with
      | unreachable fault _ h => exact .inl ⟨rfl, fault, h⟩
      | absent _ h =>
        exact .inr ⟨none, s', ask_eq_ok_iff.2 h, Session.failsWith_throw_iff.2 ⟨rfl, rfl⟩⟩
      | undecodable data e _ _ hdecode => cases hdecode

variable {decode : Bytes → Except AuctionError α} {m : Session σ ε α}

theorem Reads.within (h : node.Reads address commitment missing decode m) (context : Context) :
    node.Reads address commitment missing decode (m.within context) :=
  ⟨fun s a s' => Session.within_eq_ok_iff.trans (h.ok_iff s a s'),
    fun s e s' => Session.failsWith_within_iff.trans (h.fails_iff s e s')⟩

/-- Judging what was read is reading with one more step of decoding. -/
theorem Reads.bind (h : node.Reads address commitment missing decode m) {k : α → Session σ ε β}
    {next : α → Except AuctionError β} (hk : Session.Judges k next) :
    node.Reads address commitment missing (fun data => decode data >>= next) (m >>= k) where
  ok_iff s b s' := by
    simp only [Running.bind_eq_ok_iff, h.ok_iff, hk.ok_iff]
    constructor
    · rintro ⟨a, t, ⟨data, hanswer, ha⟩, hb, rfl⟩
      exact ⟨data, hanswer, by rw [ha, Running.ok_bind, hb]⟩
    · rintro ⟨data, hanswer, hb⟩
      cases ha : decode data with
      | error e => simp [ha] at hb
      | ok a =>
        rw [ha, Running.ok_bind] at hb
        exact ⟨a, s', ⟨data, hanswer, ha⟩, hb, rfl⟩
  fails_iff s e s' := by
    simp only [Session.failsWith_bind_iff, h.ok_iff, h.fails_iff, hk.fails_iff]
    constructor
    · rintro (hmiss | ⟨a, t, ⟨data, hanswer, ha⟩, error, hb, rfl, rfl⟩)
      · cases hmiss with
        | unreachable fault _ hanswer => exact .unreachable fault s' hanswer
        | absent _ hanswer => exact .absent s' hanswer
        | undecodable data e _ hanswer he =>
          exact .undecodable data e s' hanswer (by rw [he, Running.error_bind])
      · exact .undecodable data error _ hanswer (by rw [ha, Running.ok_bind, hb])
    · intro hmiss
      cases hmiss with
      | unreachable fault _ hanswer => exact .inl (.unreachable fault s' hanswer)
      | absent _ hanswer => exact .inl (.absent s' hanswer)
      | undecodable data e _ hanswer he =>
        cases ha : decode data with
        | error e' =>
          rw [ha, Running.error_bind] at he
          cases he
          exact .inl (.undecodable data e s' hanswer ha)
        | ok a =>
          rw [ha, Running.ok_bind] at he
          exact .inr ⟨a, s', ⟨data, hanswer, ha⟩, e, he, rfl, rfl⟩

theorem fetchRecord_reads {layout : Layout α} :
    node.Reads address commitment missing layout.decode
      (node.fetchRecord layout address commitment missing) :=
  fetch_reads.bind Session.judges_ofExcept

/-- Reading asks for the account, and for nothing else. -/
theorem Reads.requests {m : Session (σ × List Request) ε α}
    (h : node.recorded.Reads address commitment missing decode m) (s : σ) :
    m.requests s = [.account address commitment] := by
  unfold Session.requests Session.after
  cases hm : m (s, []) with
  | ok a t =>
    obtain ⟨data, hanswer, -⟩ := (h.ok_iff _ _ _).1 hm
    exact (recorded_eq_ok_iff.1 hanswer).2
  | error f t =>
    have hmiss := (h.fails_iff _ _ _).1 ⟨f, hm, rfl⟩
    generalize f.auctionError? = e at hmiss
    cases hmiss with
    | unreachable fault _ hanswer => exact (recorded_eq_error_iff.1 hanswer).2
    | absent _ hanswer => exact (recorded_eq_ok_iff.1 hanswer).2
    | undecodable data e _ hanswer _ => exact (recorded_eq_ok_iff.1 hanswer).2

/-! ## The views -/

/-- **A view that says what is wrong.** It asks for one account and succeeds exactly if the account
exists and decodes. A failure carries an error of the kind `notFound` exactly if the account is
absent, one of the kind `deserialization`, the decoder's own, exactly if it is there and does not
decode, and none exactly if the request failed. -/
structure IsView (view : {σ : Type} → Node σ ε → Session σ ε α) (address : Address)
    (commitment : Commitment) (missing : AuctionError) (decode : Bytes → Except AuctionError α) :
    Prop where
  requests : ∀ {σ : Type} (node : Node σ ε) (s : σ),
    (view node.recorded).requests s = [.account address commitment]
  ok_iff : ∀ {σ : Type} (node : Node σ ε) (s : σ) a s', view node s = .ok a s'
    ↔ ∃ data, node.answer (.account address commitment) s = .ok (some data) s' ∧ decode data = .ok a
  notFound_iff : ∀ {σ : Type} (node : Node σ ε) (s : σ) e s',
    (view node).FailsWith s (some e) s' ∧ e.kind = .notFound
      ↔ e = missing ∧ node.answer (.account address commitment) s = .ok none s'
  deserialization_iff : ∀ {σ : Type} (node : Node σ ε) (s : σ) e s',
    (view node).FailsWith s (some e) s' ∧ e.kind = .deserialization
      ↔ ∃ data, node.answer (.account address commitment) s = .ok (some data) s'
        ∧ decode data = .error e
  unreachable_iff : ∀ {σ : Type} (node : Node σ ε) (s : σ) s', (view node).FailsWith s none s'
    ↔ ∃ fault, node.answer (.account address commitment) s = .error fault s'

theorem isView_of_reads {view : {σ : Type} → Node σ ε → Session σ ε α}
    (hview : ∀ {σ : Type} (node : Node σ ε),
      node.Reads address commitment missing decode (view node))
    (hmissing : missing.kind = .notFound)
    (hdecode : ∀ data e, decode data = .error e → e.kind = .deserialization) :
    IsView view address commitment missing decode where
  requests node s := (hview node.recorded).requests s
  ok_iff node := (hview node).ok_iff
  notFound_iff node s e s' := by
    rw [(hview node).fails_iff]
    constructor
    · rintro ⟨hmiss, hkind⟩
      cases hmiss with
      | absent _ h => exact ⟨rfl, h⟩
      | undecodable data _ _ h he =>
        rw [hdecode _ _ he] at hkind
        cases hkind
    · rintro ⟨rfl, h⟩
      exact ⟨.absent s' h, hmissing⟩
  deserialization_iff node s e s' := by
    rw [(hview node).fails_iff]
    constructor
    · rintro ⟨hmiss, hkind⟩
      cases hmiss with
      | absent _ h =>
        rw [hmissing] at hkind
        cases hkind
      | undecodable data _ _ h he => exact ⟨data, h, he⟩
    · rintro ⟨data, h, he⟩
      exact ⟨.undecodable data e s' h he, hdecode _ _ he⟩
  unreachable_iff node s s' := by
    rw [(hview node).fails_iff]
    constructor
    · intro hmiss
      cases hmiss with
      | unreachable fault _ h => exact ⟨fault, h⟩
    · rintro ⟨fault, h⟩
      exact .unreachable fault s' h

/-- Taking a part of a record is no reason to fail. -/
theorem kind_of_projected {layout : Layout α} (h : layout.BlamesData) {f : α → β} {data : Bytes}
    {e : AuctionError} (he : (layout.decode data >>= fun a => .ok (f a)) = .error e) :
    e.kind = .deserialization := by
  cases hd : layout.decode data with
  | ok a => simp [hd] at he
  | error e' =>
    rw [hd, Running.error_bind] at he
    cases he
    exact h.kind_of_decode hd

theorem fetchRecord_isView {layout : Layout α} (hlayout : layout.BlamesData)
    (hmissing : missing.kind = .notFound) :
    IsView (fun {_} (node : Node _ ε) => node.fetchRecord layout address commitment missing)
      address commitment missing layout.decode :=
  isView_of_reads (fun _ => fetchRecord_reads) hmissing fun _ _ => hlayout.kind_of_decode

theorem domainOwner_isView (x : Domain) :
    IsView (fun {_} (node : Node _ ε) => node.domainOwner x) x.nameAccount .confirmed
      .accountNotFound fun data => NameHeader.layout.decode data >>= fun h => .ok h.owner :=
  isView_of_reads (fun _ => fetchRecord_reads.bind Session.judges_pure) rfl
    fun _ _ => kind_of_projected NameHeader.layout_blamesData

theorem reverseLookup_isView (d : Deployment) (nameAccount : Address) :
    IsView (fun {_} (node : Node _ ε) => node.reverseLookup d nameAccount)
      (d.reverseLookup nameAccount) .confirmed .accountNotFound
      fun data => ReverseLookup.layout.decode data >>= fun r => .ok r.name := by
  refine isView_of_reads (fun node => ?_) rfl
    fun _ _ => kind_of_projected ReverseLookup.layout_blamesData
  have hdecoded : node.Reads (d.reverseLookup nameAccount) .confirmed .accountNotFound
      ReverseLookup.layout.decode (do
        let data ← (node.fetch (d.reverseLookup nameAccount) .confirmed .accountNotFound).within
          (.reverseLookup nameAccount)
        Session.ofExcept (ReverseLookup.layout.decode data)) :=
    (fetch_reads.within _).bind Session.judges_ofExcept
  have hname := hdecoded.bind (Session.judges_pure (f := ReverseLookup.name))
  rw [bind_assoc] at hname
  exact hname

theorem oraclePrice_isView (d : Deployment) :
    IsView (fun {_} (node : Node _ ε) => node.oraclePrice d) d.priceOracle .confirmed
      .accountNotFound
      fun data => (OraclePrice.decode data).mapError OracleError.toAuctionError := by
  refine isView_of_reads (fun node => (fetch_reads.within _).bind ⟨?_, ?_⟩) rfl ?_
  · intro data s price s'
    cases OraclePrice.decode data with
    | ok p => simp [Running.pure_eq_ok_iff, eq_comm]
    | error e => simp [Running.throw_ne_ok]
  · intro data s e s'
    cases OraclePrice.decode data with
    | ok p => simp [Session.not_failsWith_pure]
    | error e' => simp [Session.failsWith_throw_iff, Failure.auctionError?, eq_comm]
  · intro data e he
    cases hd : OraclePrice.decode data with
    | ok p => simp [hd, Except.mapError] at he
    | error e' =>
      rw [hd] at he
      cases he
      exact e'.kind_toAuctionError

end Node

end DomainAuction
