/-! # Computations that may fail

When one computation after another gives a result, each of them does. A check is a computation that gives
nothing but that it is passed. -/

namespace Xlsx

variable {ε ε' α β : Type}

/-- **A computation and the one that goes on with its result** give a result together if each does. -/
theorem bind_eq_ok {x : Except ε α} {f : α → Except ε β} {b : β} :
    (x >>= f) = .ok b ↔ ∃ a, x = .ok a ∧ f a = .ok b := by
  cases x with
  | error cause => simp [bind, Except.bind]
  | ok a => simp [bind, Except.bind]

/-- **The error of a computation that goes on** is that of its first part, or of what goes on with the
result of it. -/
theorem bind_eq_error {x : Except ε α} {f : α → Except ε β} {cause : ε} :
    (x >>= f) = .error cause ↔ x = .error cause ∨ ∃ a, x = .ok a ∧ f a = .error cause := by
  cases x with
  | error other => simp [bind, Except.bind]
  | ok a => simp [bind, Except.bind]

/-- Another name for an error makes no result. -/
theorem mapError_eq_ok {x : Except ε α} {f : ε → ε'} {a : α} : x.mapError f = .ok a ↔ x = .ok a := by
  cases x with
  | error cause => exact ⟨(nomatch ·), (nomatch ·)⟩
  | ok b => exact ⟨fun h => congrArg _ (Except.ok.inj h), fun h => congrArg _ (Except.ok.inj h)⟩

/-- An error with another name is an error that has been renamed. -/
theorem mapError_eq_error {x : Except ε α} {f : ε → ε'} {cause : ε'} :
    x.mapError f = .error cause ↔ ∃ other, x = .error other ∧ f other = cause := by
  cases x with
  | error other =>
    constructor
    · intro h
      exact ⟨other, rfl, Except.error.inj h⟩
    · rintro ⟨same, hsame, rfl⟩
      rw [← Except.error.inj hsame]
      rfl
  | ok a =>
    constructor
    · intro h
      exact nomatch h
    · rintro ⟨other, hother, -⟩
      exact nomatch hother

/-- What is made of a result is a result. -/
theorem map_eq_ok {x : Except ε α} {f : α → β} {b : β} :
    x.map f = .ok b ↔ ∃ a, x = .ok a ∧ f a = b := by
  cases x <;> simp [Except.map]

/-- What is made of a result makes no error. -/
theorem map_eq_error {x : Except ε α} {f : α → β} {cause : ε} :
    x.map f = .error cause ↔ x = .error cause := by
  cases x <;> simp [Except.map]

/-- A fold goes on behind a step that gives a result. -/
theorem foldlM_of_ok {f : β → α → Except ε β} {b after : β} {a : α} (h : f b a = .ok after) (as : List α) :
    (a :: as).foldlM f b = as.foldlM f after := by
  rw [List.foldlM_cons, h]
  rfl

/-- Each of the results of a list of computations is that of one of them. -/
theorem mem_of_mapM {f : α → Except ε β} {as : List α} {bs : List β} (h : as.mapM f = .ok bs) :
    ∀ b ∈ bs, ∃ a ∈ as, f a = .ok b := by
  induction as generalizing bs with
  | nil =>
    rw [List.mapM_nil] at h
    rw [← Except.ok.inj h]
    exact fun b hb => absurd hb List.not_mem_nil
  | cons a as ih =>
    rw [List.mapM_cons] at h
    obtain ⟨first, hfirst, h⟩ := bind_eq_ok.mp h
    obtain ⟨rest, hrest, h⟩ := bind_eq_ok.mp h
    rw [← Except.ok.inj h]
    intro b hb
    rcases List.mem_cons.mp hb with rfl | hb
    · exact ⟨a, List.mem_cons_self, hfirst⟩
    · obtain ⟨other, hother, hresult⟩ := ih hrest b hb
      exact ⟨other, List.mem_cons_of_mem _ hother, hresult⟩

/-- A list of computations that give their results together: each of them gives one. -/
theorem ok_of_mapM {f : α → Except ε β} {as : List α} {bs : List β} (h : as.mapM f = .ok bs) :
    ∀ a ∈ as, ∃ b, f a = .ok b := by
  induction as generalizing bs with
  | nil => exact fun a ha => absurd ha List.not_mem_nil
  | cons a as ih =>
    rw [List.mapM_cons] at h
    obtain ⟨first, hfirst, h⟩ := bind_eq_ok.mp h
    obtain ⟨rest, hrest, -⟩ := bind_eq_ok.mp h
    exact List.forall_mem_cons.mpr ⟨⟨first, hfirst⟩, ih hrest⟩

/-- Computations that all give a result give their results together. -/
theorem mapM_of_ok {f : α → Except ε β} {g : α → β} {as : List α} (h : ∀ a ∈ as, f a = .ok (g a)) :
    as.mapM f = .ok (as.map g) := by
  induction as with
  | nil => rfl
  | cons a as ih =>
    rw [List.mapM_cons, h a List.mem_cons_self, ih fun b hb => h b (List.mem_cons_of_mem _ hb)]
    rfl

/-- **The error of a list of computations** is that of the first one that fails. -/
theorem mapM_eq_error {f : α → Except ε β} {as : List α} {cause : ε} :
    as.mapM f = .error cause ↔
      ∃ before a after, as = before ++ a :: after ∧ (∀ b ∈ before, ∃ c, f b = .ok c) ∧
        f a = .error cause := by
  constructor
  · intro h
    induction as with
    | nil => simp [pure, Except.pure] at h
    | cons a as ih =>
      rw [List.mapM_cons] at h
      cases hfirst : f a with
      | error other =>
        rw [hfirst] at h
        exact ⟨[], a, as, rfl, by simp, by rw [hfirst]; exact congrArg _ (Except.error.inj h)⟩
      | ok c =>
        have hrest : as.mapM f = .error cause := by
          rw [hfirst] at h
          cases hall : as.mapM f with
          | error other => exact congrArg _ (by rw [hall] at h; exact Except.error.inj h)
          | ok cs => simp [hall, bind, Except.bind, pure, Except.pure] at h
        obtain ⟨before, b, after, rfl, hbefore, hb⟩ := ih hrest
        refine ⟨a :: before, b, after, rfl, ?_, hb⟩
        exact List.forall_mem_cons.mpr ⟨⟨c, hfirst⟩, hbefore⟩
  · rintro ⟨before, a, after, rfl, hbefore, ha⟩
    induction before with
    | nil =>
      rw [List.nil_append, List.mapM_cons, ha]
      rfl
    | cons b before ih =>
      obtain ⟨⟨c, hc⟩, hrest⟩ := List.forall_mem_cons.mp hbefore
      rw [List.cons_append, List.mapM_cons, hc]
      show ((before ++ a :: after).mapM f >>= _) = _
      rw [ih hrest]
      rfl

/-- An error takes nothing on. -/
@[simp] theorem throw_bind (cause : ε) (f : α → Except ε β) :
    ((throw cause : Except ε α) >>= f) = .error cause := rfl

/-! ## Checks -/

/-- **What a check finds.** What passes it has the property, and where it is refused there is a reason for
what is reported. -/
structure Finds (check : Except ε Unit) (property : Prop) (reason : ε → Prop) : Prop where
  passed : check = .ok () → property
  refused : ∀ cause, check = .error cause → reason cause

namespace Finds

variable {x y : Except ε Unit} {P Q : Prop} {reason : ε → Prop}

/-- A check of nothing. -/
theorem ok (h : P) : Finds (.ok ()) P reason where
  passed _ := h
  refused _ h := nomatch h

/-- A check that is always refused. -/
theorem error {cause : ε} (h : reason cause) : Finds (.error cause) P reason where
  passed h := nomatch h
  refused _ hcause := Except.error.inj hcause ▸ h

/-- A condition that is refused, in front of the rest of a check. -/
theorem guarded {condition : Prop} [Decidable condition] {cause : ε} (hreason : condition → reason cause)
    (hrest : ¬ condition → Finds x P reason) :
    Finds (if condition then .error cause else x) P reason := by
  split
  · exact .error (hreason ‹_›)
  · exact hrest ‹_›

/-- A check of a property is one of what follows from it. -/
theorem imp (h : Finds x P reason) (hPQ : P → Q) : Finds x Q reason :=
  ⟨fun hx => hPQ (h.passed hx), h.refused⟩

/-- One check behind another. -/
theorem andThen (hx : Finds x P reason) (hy : Finds y Q reason) : Finds (x >>= fun _ => y) (P ∧ Q) reason := by
  cases x with
  | error cause => exact .error (hx.refused cause rfl)
  | ok _ => exact hy.imp fun hQ => ⟨hx.passed rfl, hQ⟩

/-- The same check of each of some things. -/
theorem forM {f : α → Except ε Unit} {P : α → Prop} {as : List α} (h : ∀ a ∈ as, Finds (f a) (P a) reason) :
    Finds (as.forM f) (∀ a ∈ as, P a) reason := by
  induction as with
  | nil => exact .ok fun a ha => absurd ha List.not_mem_nil
  | cons a as ih =>
    obtain ⟨ha, has⟩ := List.forall_mem_cons.mp h
    exact (ha.andThen (ih has)).imp List.forall_mem_cons.mpr

/-- A check of what need not be there. -/
theorem option_forM {f : α → Except ε Unit} {P : α → Prop} {a? : Option α}
    (h : ∀ a ∈ a?, Finds (f a) (P a) reason) : Finds (a?.forM f) (∀ a ∈ a?, P a) reason := by
  cases a? with
  | none => exact .ok fun a ha => absurd ha (Option.not_mem_none a)
  | some a => exact (h a rfl).imp fun ha b hb => Option.mem_some.mp hb ▸ ha

end Finds

end Xlsx
