import FixEngine.Proofs.Engine.Run

/-!
# Order of the numbers that are counted

A strict handler counts the numbers of the other side one after another.  A
number is left out only if a sequence reset moves the expectation past it, and no
message reaches the application ahead of the expectation or without a number.
-/

namespace FixEngine.Handler

variable {h : Handler} {input : Input} {inputs : List Input} {services : Services}
  {shared : Shared} {m : Message} {i j : Nat} {n k skipped : UInt32}

/-- The input at a position of a run is counted under a number. -/
def CountsAt (h : Handler) (inputs : List Input) (i : Nat) (n : UInt32) : Prop :=
  ∃ input, inputs[i]? = some input ∧ (h.before inputs i).Counts input ∧ input.number? = some n

/-- All through a run the expected number stays below the greatest one. -/
def StaysBelow (h : Handler) (inputs : List Input) : Prop :=
  ∀ i, i ≤ inputs.length → (h.before inputs i).expects < 0xFFFFFFFF

instance : Decidable (h.StaysBelow inputs) :=
  inferInstanceAs (Decidable (∀ i, i ≤ inputs.length → (h.before inputs i).expects < 0xFFFFFFFF))

/-! ### One input -/

/-- A strict handler counts nothing but the expected number, which moves the
expectation. -/
theorem expects_of_counts (ht : h.InTraffic) (hbelow : h.expects < 0xFFFFFFFF)
    (hcounts : h.Counts input) :
    input.number? = some h.expects ∧ h.expects < (h.next input).expects := by
  cases input with
  | stamp => exact hcounts.elim
  | message services shared m =>
    obtain ⟨⟨hphase, s, msgType, hchecked, hpasses⟩, hnew⟩ := hcounts
    have hexpects := expects_of_isChecked hchecked
    obtain ⟨t', hcheck⟩ :
        ∃ t', (Turn.start h shared).checkSequence services.now s m = (t', true) :=
      ⟨_, Prod.ext rfl hpasses⟩
    rcases (Turn.Checked.of_eq hcheck).of_strict ht.strict with
      ⟨-, hdup, n, hnumber, hlow⟩ | ⟨rfl, hnumber⟩
    · refine absurd ⟨hdup, ?_⟩ hnew
      rw [hnumber, hexpects, Option.any_some, decide_eq_true_eq]
      exact hlow
    · have hprocess := Turn.expects_le_process ((Turn.start h shared).counted s) services s.id
        msgType m
      rw [Turn.expects_counted, ← hexpects] at hprocess
      rw [next, receive_established hphase, Turn.traffic_of_isChecked hchecked hcheck]
      refine ⟨hexpects ▸ hnumber, UInt32.lt_of_lt_of_le ?_ hprocess⟩
      exact (lt_expects_succ hbelow).2 (UInt32.le_refl _)

/-- Below the greatest number, no input moves the expectation back. -/
theorem expects_le_next (ht : h.InTraffic) (hbelow : h.expects < 0xFFFFFFFF)
    (input : Input) : h.expects ≤ (h.next input).expects := by
  cases takes_next ht input with
  | kept hexpects | requested _ _ hexpects =>
    rw [hexpects]
    exact UInt32.le_refl _
  | counted _ _ hexpects =>
    rw [hexpects]
    exact UInt32.le_of_lt ((lt_expects_succ hbelow).2 (UInt32.le_refl _))
  | reset _ hexpects => exact hexpects hbelow

/-- A message ahead of the expectation or without a number leaves everything
alone that handlers have in common. -/
theorem shared_of_ahead (ht : h.InTraffic)
    (hahead : m.header.msgSeqNum.all (h.expects < ·) = true) :
    (h.receive services shared m).shared = shared := by
  rcases ht.phase with hphase | hphase
  · have htreated := (Turn.start h shared).treated_traffic services m
    rw [receive_established hphase]
    generalize (Turn.start h shared).traffic services m = t' at htreated ⊢
    cases htreated with
    | ignored => rfl
    | logon => exact Turn.shared_refuse _ services.now _
    | reset => exact (Turn.advances_resetSequence _ m).shared
    | stopped _ hcheck => exact (Turn.Checked.of_eq hcheck).shared
    | processed hchecked hcheck =>
      have hexpects := expects_of_isChecked hchecked
      rcases (Turn.Checked.of_eq hcheck).of_strict ht.strict with
        ⟨-, -, n, hnumber, hlow⟩ | ⟨-, hnumber⟩
      all_goals rw [hnumber, hexpects, Option.all_some, decide_eq_true_eq] at hahead
      · exact absurd hahead (UInt32.lt_asymm hlow)
      · exact absurd hahead (UInt32.lt_irrefl _)
  · rw [receive_closed hphase]
    rfl

/-! ### Runs -/

/-- The expectation does not move back in a run. -/
theorem expects_le_before (ht : h.InTraffic) (hbelow : h.StaysBelow inputs) (hij : i ≤ j) :
    (h.before inputs i).expects ≤ (h.before inputs j).expects := by
  induction hij with
  | refl => exact UInt32.le_refl _
  | @step j _ ih =>
    cases hinput : inputs[j]? with
    | none =>
      rw [before_succ_of_none hinput]
      exact ih
    | some input =>
      have hj : j < inputs.length := (List.getElem?_eq_some_iff.1 hinput).1
      rw [before_succ hinput]
      exact UInt32.le_trans ih
        (expects_le_next (inTraffic_before ht inputs j) (hbelow j (Nat.le_of_lt hj)) input)

/-- The expectation moves past each number below which it comes to be. -/
theorem exists_passesAt (hij : i ≤ j) (hlow : (h.before inputs i).expects ≤ n)
    (hhigh : n < (h.before inputs j).expects) : ∃ l, i ≤ l ∧ l < j ∧ h.PassesAt inputs l n := by
  induction hij with
  | refl => exact absurd hhigh (UInt32.not_lt.2 hlow)
  | @step j hij ih =>
    by_cases hpassed : n < (h.before inputs j).expects
    · obtain ⟨l, hil, hlj, hpasses⟩ := ih hpassed
      exact ⟨l, hil, Nat.lt_succ_of_lt hlj, hpasses⟩
    · exact ⟨j, hij, Nat.lt_succ_self j, UInt32.not_lt.1 hpassed, hhigh⟩

/-- The expectation moves past a number when the number is counted or by a
sequence reset. -/
theorem counts_or_resets (ht : h.InTraffic) (hbelow : h.StaysBelow inputs)
    (hpasses : h.PassesAt inputs i n) :
    ((h.before inputs i).expects = n ∧ h.CountsAt inputs i n) ∨ h.ResetsAt inputs i n := by
  obtain ⟨hlow, hhigh⟩ := hpasses
  cases hinput : inputs[i]? with
  | none =>
    rw [before_succ_of_none hinput] at hhigh
    exact absurd hhigh (UInt32.not_lt.2 hlow)
  | some input =>
    have hi : i < inputs.length := (List.getElem?_eq_some_iff.1 hinput).1
    have hnext := before_succ (h := h) hinput
    cases takes_next (inTraffic_before ht inputs i) input with
    | kept hexpects | requested _ _ hexpects =>
      rw [hnext, hexpects] at hhigh
      exact absurd hhigh (UInt32.not_lt.2 hlow)
    | counted hcounts hnumber hexpects =>
      rw [hnext, hexpects, lt_expects_succ (hbelow i (Nat.le_of_lt hi))] at hhigh
      have heq : (h.before inputs i).expects = n := UInt32.le_antisymm hlow hhigh
      exact .inl ⟨heq, input, hinput, hcounts, heq ▸ hnumber⟩
    | reset hreset => exact .inr ⟨⟨hlow, hhigh⟩, input, hinput, hreset⟩

/-- A counted number is the one that was expected. -/
theorem expects_of_countsAt (ht : h.InTraffic) (hbelow : h.StaysBelow inputs)
    (hcounts : h.CountsAt inputs i n) :
    (h.before inputs i).expects = n ∧ n < (h.before inputs (i + 1)).expects := by
  obtain ⟨input, hinput, hcounts, hnumber⟩ := hcounts
  have hi : i < inputs.length := (List.getElem?_eq_some_iff.1 hinput).1
  obtain ⟨hexpected, hmoves⟩ :=
    expects_of_counts (inTraffic_before ht inputs i) (hbelow i (Nat.le_of_lt hi)) hcounts
  have heq : (h.before inputs i).expects = n := Option.some.inj (hexpected.symm.trans hnumber)
  rw [← before_succ hinput, heq] at hmoves
  exact ⟨heq, hmoves⟩

/-- A number between two counted ones is counted between them or passed by a
sequence reset. -/
theorem counts_or_resets_between (ht : h.InTraffic) (hbelow : h.StaysBelow inputs)
    (hfirst : h.CountsAt inputs i n) (hsecond : h.CountsAt inputs j k) (hij : i < j)
    (hlow : n < skipped) (hhigh : skipped < k) :
    (∃ l, i < l ∧ l < j ∧ h.CountsAt inputs l skipped) ∨
      ∃ l, i ≤ l ∧ l < j ∧ h.ResetsAt inputs l skipped := by
  obtain ⟨hn, -⟩ := expects_of_countsAt ht hbelow hfirst
  obtain ⟨hk, -⟩ := expects_of_countsAt ht hbelow hsecond
  obtain ⟨l, hil, hlj, hpasses⟩ := exists_passesAt (Nat.le_of_lt hij)
    (hn ▸ UInt32.le_of_lt hlow) (hk.symm ▸ hhigh)
  rcases counts_or_resets ht hbelow hpasses with ⟨hexpects, hcounts⟩ | hresets
  · refine .inl ⟨l, Nat.lt_of_le_of_ne hil ?_, hlj, hcounts⟩
    -- The first position counts its own number and so no greater one.
    rintro rfl
    exact UInt32.ne_of_lt hlow (hn.symm.trans hexpects)
  · exact .inr ⟨l, hil, hlj, hresets⟩

/-- A strict handler counts each number when it is expected, and so in order and
at most once.  A number between two counted ones is left out only if a sequence
reset moves the expectation past it.  What arrives ahead of the expectation or
without a number never reaches the application. -/
theorem counts_in_order (hphase : h.phase = .established) (hstrict : h.strict = true)
    (hbelow : h.StaysBelow inputs) :
    (∀ i input, inputs[i]? = some input → (h.before inputs i).Counts input →
      input.number? = some (h.before inputs i).expects) ∧
    (∀ i j n k, i < j → h.CountsAt inputs i n → h.CountsAt inputs j k →
      n < k ∧ ∀ skipped, n < skipped → skipped < k →
        (∃ l, i < l ∧ l < j ∧ h.CountsAt inputs l skipped) ∨
          ∃ l, i ≤ l ∧ l < j ∧ h.ResetsAt inputs l skipped) ∧
    (∀ i services shared m, inputs[i]? = some (.message services shared m) →
      m.header.msgSeqNum.all ((h.before inputs i).expects < ·) = true →
      ((h.before inputs i).receive services shared m).shared.events = shared.events) := by
  have ht : h.InTraffic := ⟨hstrict, .inl hphase⟩
  refine ⟨?_, ?_, ?_⟩
  · intro i input hinput hcounts
    have hi : i < inputs.length := (List.getElem?_eq_some_iff.1 hinput).1
    exact (expects_of_counts (inTraffic_before ht inputs i) (hbelow i (Nat.le_of_lt hi)) hcounts).1
  · intro i j n k hij hfirst hsecond
    constructor
    · -- Counting moves the expectation beyond the number, and it never moves back.
      obtain ⟨-, hn⟩ := expects_of_countsAt ht hbelow hfirst
      obtain ⟨hk, -⟩ := expects_of_countsAt ht hbelow hsecond
      rw [← hk]
      exact UInt32.lt_of_lt_of_le hn (expects_le_before ht hbelow hij)
    · intro skipped hlow hhigh
      exact counts_or_resets_between ht hbelow hfirst hsecond hij hlow hhigh
  · intro i services shared m _ hahead
    rw [shared_of_ahead (inTraffic_before ht inputs i) hahead]

/-- News under two and five arrive before the numbers between them, of which three
is a gap fill up to five. -/
def sampleInputs : List Input :=
  let news := Message.ofType .news []
  [sampleInput 2 news, sampleInput 5 news, sampleInput 3 (sampleGapFill 5), sampleInput 5 news]

/-- Three is counted, and the gap fill under it passes four. -/
theorem counts_in_order_sample :
    sampleAcceptor.phase = .established ∧ sampleAcceptor.strict = true ∧
      sampleAcceptor.StaysBelow sampleInputs ∧
      ∀ skipped, 2 < skipped → skipped < 5 →
        (∃ l, 0 < l ∧ l < 3 ∧ sampleAcceptor.CountsAt sampleInputs l skipped) ∨
          ∃ l, 0 ≤ l ∧ l < 3 ∧ sampleAcceptor.ResetsAt sampleInputs l skipped := by
  have hbelow : sampleAcceptor.StaysBelow sampleInputs := by decide
  have hfirst : sampleAcceptor.CountsAt sampleInputs 0 2 :=
    ⟨_, rfl, counts_of_expected rfl ⟨rfl, rfl, by decide, rfl⟩ rfl, rfl⟩
  have hlast : sampleAcceptor.CountsAt sampleInputs 3 5 :=
    ⟨_, rfl, counts_of_expected rfl ⟨rfl, rfl, by decide, rfl⟩ rfl, rfl⟩
  obtain ⟨-, hordered, -⟩ := counts_in_order (h := sampleAcceptor) rfl rfl hbelow
  exact ⟨rfl, rfl, hbelow, (hordered 0 3 2 5 (by decide) hfirst hlast).2⟩

end FixEngine.Handler
