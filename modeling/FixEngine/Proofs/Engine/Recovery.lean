import FixEngine.Proofs.Engine.Run

/-!
# Numbers that are asked for again

A strict handler asks once for the numbers before one that is ahead, and drops
what is ahead without a word while it waits for them.  The last of the numbers
that it asked for tells it when to stop waiting.  A sequence reset that moves the
expectation past that number leaves it waiting, so that messages may be dropped
when nothing that was asked for is still to come.
-/

namespace FixEngine.Handler

variable {h : Handler} {input : Input} {inputs : List Input} {i : Nat} {last : UInt32}

/-- The input at a position of a run is answered with a request for the messages
up to a number. -/
def RequestsAt (h : Handler) (inputs : List Input) (i : Nat) (last : UInt32) : Prop :=
  ∃ input, inputs[i]? = some input ∧ (h.before inputs i).Requests input last

/-- A message ahead of the expectation is dropped and nothing is asked for. -/
def Stalls (h : Handler) (input : Input) : Prop :=
  h.Drops input ∧ input.number?.any (h.expects < ·) = true ∧ ∀ last, ¬h.Requests input last

/-- The messages up to a number were asked for before a position of a run.  The
number is still to come, or a sequence reset has moved the expectation past it
since. -/
def RequestedBefore (h : Handler) (inputs : List Input) (i : Nat) (last : UInt32) : Prop :=
  ∃ l, l < i ∧ h.RequestsAt inputs l last ∧
    ((h.before inputs i).expects ≤ last ∨ ∃ k, l < k ∧ k < i ∧ h.ResetsAt inputs k last)

/-- The number that a request gives as its last is read back. -/
theorem eq_of_ofInt_toNat {n k : UInt32} (h : Int64.ofInt n.toNat = Int64.ofInt k.toNat) :
    n = k := by
  have hn : n.toNat < 4294967296 := n.toNat_lt
  have hk : k.toNat < 4294967296 := k.toNat_lt
  have hint := congrArg Int64.toInt h
  rw [Int64.toInt_ofInt_of_le (by omega) (by omega), Int64.toInt_ofInt_of_le (by omega) (by omega)]
    at hint
  exact UInt32.toNat_inj.1 (Int.ofNat.inj hint)

/-- A strict handler drops a message ahead of the expectation without a word only
while it waits for messages that it asked for. -/
theorem exists_resendUntil_of_stalls (hstalls : h.Stalls input) :
    ∃ last, h.resendUntil = some last := by
  obtain ⟨hdrops, hahead, hsilent⟩ := hstalls
  cases input with
  | stamp => exact hdrops.elim
  | message services shared m =>
    obtain ⟨hphase, s, msgType, hchecked, hfails⟩ := hdrops
    have hahead : m.header.msgSeqNum.any (h.expects < ·) = true := hahead
    obtain ⟨t', hcheck⟩ :
        ∃ t', (Turn.start h shared).checkSequence services.now s m = (t', false) :=
      ⟨_, Prod.ext rfl hfails⟩
    cases Turn.Checked.of_eq hcheck with
    | unnumbered hnumber =>
      rw [hnumber] at hahead
      contradiction
    | tooLow hnumber _ hlow =>
      rw [hnumber, expects_of_isChecked hchecked, Option.any_some, decide_eq_true_eq] at hahead
      exact absurd hahead (UInt32.lt_asymm hlow)
    | requested hnumber =>
      have hreceive : h.receive services shared m = _ := receive_established hphase
      rw [Turn.traffic_of_stopped hchecked hcheck] at hreceive
      exact absurd (requests_of_requested hchecked hreceive) (hsilent _)
    | @dropped _ last _ _ _ hlast => exact ⟨last, hlast⟩

/-- What was asked for before an input was asked for before the next one too. -/
theorem RequestedBefore.succ (hrequested : h.RequestedBefore inputs i last)
    (hexpects : (h.before inputs i).expects ≤ last →
      (h.before inputs (i + 1)).expects ≤ last ∨ h.ResetsAt inputs i last) :
    h.RequestedBefore inputs (i + 1) last := by
  obtain ⟨l, hl, hrequests, hle | ⟨k, hlk, hki, hresets⟩⟩ := hrequested
  · refine ⟨l, Nat.lt_succ_of_lt hl, hrequests, ?_⟩
    rcases hexpects hle with hle | hresets
    · exact .inl hle
    · exact .inr ⟨i, hl, Nat.lt_succ_self i, hresets⟩
  · exact ⟨l, Nat.lt_succ_of_lt hl, hrequests, .inr ⟨k, hlk, Nat.lt_succ_of_lt hki, hresets⟩⟩

/-- What a strict handler waits for was asked for, and is still to come unless a
sequence reset has moved the expectation past it. -/
theorem requestedBefore_of_resendUntil (ht : h.InTraffic) (hnone : h.resendUntil = none)
    (hlast : (h.before inputs i).resendUntil = some last) : h.RequestedBefore inputs i last := by
  induction i generalizing last with
  | zero =>
    have hstart : h.resendUntil = some last := hlast
    rw [hnone] at hstart
    contradiction
  | succ i ih =>
    cases hinput : inputs[i]? with
    | none =>
      have hsame := before_succ_of_none (h := h) hinput
      rw [hsame] at hlast
      exact (ih hlast).succ fun hle => .inl (hsame ▸ hle)
    | some input =>
      have hnext := before_succ (h := h) hinput
      rw [hnext] at hlast
      cases takes_next (inTraffic_before ht inputs i) input with
      | kept hexpects hresend =>
        rw [hresend] at hlast
        refine (ih hlast).succ fun hle => .inl ?_
        rw [hnext, hexpects]
        exact hle
      | requested hrequests hahead hexpects hresend =>
        cases Option.some.inj (hresend.symm.trans hlast)
        refine ⟨i, Nat.lt_succ_self i, ⟨input, hinput, hrequests⟩, .inl ?_⟩
        rw [hnext, hexpects]
        exact UInt32.le_of_lt hahead
      | counted _ _ hexpects hresend =>
        -- Counting the last number that was asked for would have ended the waiting.
        obtain ⟨hlast, hlt⟩ := hresend last hlast
        refine (ih hlast).succ fun _ => .inl ?_
        rw [hnext, hexpects]
        exact expects_succ_le hlt
      | reset hreset _ hresend =>
        -- A reset leaves what is waited for alone, however far it moves.
        refine (ih (hresend last hlast)).succ fun hle => ?_
        by_cases hbelow : (h.before inputs (i + 1)).expects ≤ last
        · exact .inl hbelow
        · exact .inr ⟨⟨hle, UInt32.not_le.1 hbelow⟩, input, hinput, hreset⟩

/-- When a strict handler drops a message ahead of the expectation without a word,
it has asked for messages before.  These are still to come, or else a sequence
reset has moved the expectation past them since. -/
theorem requestedBefore_of_stalls (hphase : h.phase = .established) (hstrict : h.strict = true)
    (hnone : h.resendUntil = none) (hstalls : (h.before inputs i).Stalls input) :
    ∃ last, h.RequestedBefore inputs i last := by
  obtain ⟨last, hlast⟩ := exists_resendUntil_of_stalls hstalls
  exact ⟨last, requestedBefore_of_resendUntil ⟨hstrict, .inl hphase⟩ hnone hlast⟩

/-- News under five arrive before the numbers from two on, which are then filled
up to six, and news under eight before six. -/
def stalledInputs : List Input :=
  let news := Message.ofType .news []
  [sampleInput 5 news, sampleInput 2 (sampleGapFill 6), sampleInput 8 news]

theorem stalls_sample :
    (sampleAcceptor.before stalledInputs 2).Stalls (sampleInput 8 (Message.ofType .news [])) := by
  refine ⟨⟨rfl, _, _, ⟨rfl, rfl, by decide, rfl⟩, rfl⟩, by decide, ?_⟩
  rintro last ⟨request, hmem, -⟩
  exact absurd hmem List.not_mem_nil

/-- The news under eight are dropped without a word, and nothing but the numbers
up to five was asked for. -/
theorem requestedBefore_of_stalls_sample :
    sampleAcceptor.phase = .established ∧ sampleAcceptor.strict = true ∧
      sampleAcceptor.resendUntil = none ∧
      ∃ last, sampleAcceptor.RequestedBefore stalledInputs 2 last :=
  ⟨rfl, rfl, rfl, requestedBefore_of_stalls rfl rfl rfl stalls_sample⟩

/-- A message may be dropped without a word though six is expected and nothing
from six on was ever asked for. -/
theorem exists_stalls_without_request :
    ∃ (h : Handler) (inputs : List Input) (i : Nat) (input : Input), h.phase = .established ∧
      h.strict = true ∧ h.resendUntil = none ∧ inputs[i]? = some input ∧
      (h.before inputs i).Stalls input ∧
      ∀ l last, l < i → h.RequestsAt inputs l last → last < (h.before inputs i).expects := by
  refine ⟨sampleAcceptor, stalledInputs, 2, _, rfl, rfl, rfl, rfl, stalls_sample, ?_⟩
  rintro l last hl ⟨input, hinput, request, hmem, -, hend⟩
  have hl : l = 0 ∨ l = 1 := by omega
  rcases hl with rfl | rfl
  · cases Option.some.inj hinput
    cases List.mem_singleton.1 hmem
    have hlast : Int64.ofInt (5 : UInt32).toNat = Int64.ofInt last.toNat := Option.some.inj hend
    cases eq_of_ofInt_toNat hlast
    decide
  · cases Option.some.inj hinput
    exact absurd hmem List.not_mem_nil

end FixEngine.Handler
