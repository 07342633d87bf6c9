/-!
# Steps that may fail

A sequence of steps succeeds when each of them does.
-/

namespace FixEngine

variable {α β ε : Type}

theorem bind_eq_ok_iff {first : Except ε α} {second : α → Except ε β} {b : β} :
    first >>= second = .ok b ↔ ∃ a, first = .ok a ∧ second a = .ok b := by
  cases first with
  | ok a =>
    constructor
    · intro h
      exact ⟨a, rfl, h⟩
    · rintro ⟨a', ha, h⟩
      cases ha
      exact h
  | error fault =>
    constructor
    · intro h
      contradiction
    · rintro ⟨a, ha, -⟩
      contradiction

theorem bind_eq_error_iff {first : Except ε α} {second : α → Except ε β} {fault : ε} :
    first >>= second = .error fault ↔
      first = .error fault ∨ ∃ a, first = .ok a ∧ second a = .error fault := by
  cases first with
  | ok a =>
    constructor
    · intro h
      exact .inr ⟨a, rfl, h⟩
    · rintro (h | ⟨a', ha, h⟩)
      · contradiction
      · cases ha
        exact h
  | error fault' =>
    constructor
    · intro h
      cases h
      exact .inl rfl
    · rintro (h | ⟨a, ha, -⟩)
      · cases h
        rfl
      · contradiction

/-- A step that only goes on from the result of another one has its faults. -/
theorem eq_error_of_bind_ok {first : Except ε α} {f : α → β} {fault : ε}
    (h : (first >>= fun a => .ok (f a)) = .error fault) : first = .error fault := by
  rcases bind_eq_error_iff.1 h with hfirst | ⟨a, -, hok⟩
  · exact hfirst
  · contradiction

theorem toOption_eq_some_iff {result : Except ε α} {a : α} :
    result.toOption = some a ↔ result = .ok a := by
  cases result <;> simp [Except.toOption]

theorem map_eq_ok_iff {result : Except ε α} {f : α → β} {b : β} :
    result.map f = .ok b ↔ ∃ a, result = .ok a ∧ f a = b := by
  cases result with
  | ok a => simp [Except.map]
  | error fault => simp [Except.map]

theorem mapError_eq_ok_iff {ε' : Type} {result : Except ε α} {f : ε → ε'} {a : α} :
    result.mapError f = .ok a ↔ result = .ok a := by
  cases result with
  | ok a' =>
    constructor
    · intro h
      cases h
      rfl
    · intro h
      cases h
      rfl
  | error fault =>
    constructor
    · intro h
      contradiction
    · intro h
      contradiction

/-- Two checks pass when each of them does. -/
theorem check_bind_eq_ok_iff {first second : Except ε Unit} :
    (first >>= fun _ => second) = .ok () ↔ first = .ok () ∧ second = .ok () := by
  rw [bind_eq_ok_iff]
  constructor
  · rintro ⟨⟨⟩, hfirst, hsecond⟩
    exact ⟨hfirst, hsecond⟩
  · rintro ⟨hfirst, hsecond⟩
    exact ⟨(), hfirst, hsecond⟩

theorem forM_eq_ok_iff {check : α → Except ε Unit} {items : List α} :
    items.forM check = .ok () ↔ ∀ a ∈ items, check a = .ok () := by
  induction items with
  | nil =>
    constructor
    · intro _ a ha
      contradiction
    · intro _
      rfl
  | cons a rest ih =>
    have hcons : (a :: rest).forM check = check a >>= fun _ => rest.forM check := rfl
    rw [hcons, check_bind_eq_ok_iff, ih, List.forall_mem_cons]

theorem forM_singleton {check : α → Except ε Unit} {a : α} : [a].forM check = check a := by
  cases hcheck : check a with
  | ok u => simp [hcheck]
  | error fault => simp [hcheck]

theorem forM_append {check : α → Except ε Unit} {left right : List α} :
    (left ++ right).forM check = left.forM check >>= fun _ => right.forM check := by
  rw [List.forM_eq_forM, List.forM_append]

/-- Checked pieces are written one after another when each of them passes its check. -/
theorem foldlM_write {check : α → Except ε Unit} {piece : α → List β}
    {step : List β → α → Except ε (List β)}
    (hstep : ∀ buffer a, step buffer a = check a >>= fun _ => .ok (buffer ++ piece a))
    (buffer : List β) (items : List α) :
    items.foldlM step buffer =
      items.forM check >>= fun _ => .ok (buffer ++ items.flatMap piece) := by
  induction items generalizing buffer with
  | nil =>
    rw [List.flatMap_nil, List.append_nil]
    rfl
  | cons a rest ih =>
    have hcons : (a :: rest).forM check = check a >>= fun _ => rest.forM check := rfl
    rw [List.foldlM_cons, hstep, hcons]
    cases check a with
    | error fault => rfl
    | ok u =>
      have hrest := ih (buffer ++ piece a)
      rw [List.append_assoc] at hrest
      exact hrest

theorem foldlM_cons_eq_ok_iff {step : β → α → Except ε β} {a : α} {rest : List α} {start last : β} :
    (a :: rest).foldlM step start = .ok last ↔
      ∃ next, step start a = .ok next ∧ rest.foldlM step next = .ok last := by
  rw [List.foldlM_cons, bind_eq_ok_iff]

theorem foldlM_append_eq_ok_iff {step : β → α → Except ε β} {left right : List α}
    {start last : β} :
    (left ++ right).foldlM step start = .ok last ↔
      ∃ next, left.foldlM step start = .ok next ∧ right.foldlM step next = .ok last := by
  rw [List.foldlM_append, bind_eq_ok_iff]

end FixEngine
