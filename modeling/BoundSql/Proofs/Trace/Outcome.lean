import BoundSql.Trace.Traced

/-!
# Outcomes of sequential computations

A sequence succeeds exactly if all of its parts succeed, each on the result of the one
before.  These equivalences open the definitions of clauses and statements; they say
nothing about which error a failing sequence ends with.
-/

namespace BoundSql

/-! ## Plain results -/

section Plain

variable {ε α β : Type}

theorem bind_eq_ok_iff {x : Except ε α} {f : α → Except ε β} {b : β} :
    x >>= f = .ok b ↔ ∃ a, x = .ok a ∧ f a = .ok b := by
  cases x with
  | error e => simp [bind, Except.bind]
  | ok a => simp [bind, Except.bind]

theorem map_eq_ok_iff {x : Except ε α} {f : α → β} {b : β} :
    x.map f = .ok b ↔ ∃ a, x = .ok a ∧ f a = b := by
  cases x with
  | error e => simp [Except.map]
  | ok a => simp [Except.map]

@[simp] theorem pure_eq_ok (a : α) : (pure a : Except ε α) = .ok a := rfl

end Plain

/-! ## Traced results -/

theorem Note.events_append (ns ms : List Note) : events (ns ++ ms) = events ns ++ events ms :=
  List.filterMap_append

namespace Traced

variable {ε α β : Type}

@[simp] theorem ofExcept_result (r : Except ε α) : (ofExcept r).result = r := rfl

@[simp] theorem ofExcept_notes (r : Except ε α) : (ofExcept r).notes = [] := rfl

@[simp] theorem fail_result (e : ε) : (fail e : Traced ε α).result = .error e := rfl

@[simp] theorem log_result (entry : LogEntry) : (log entry : Traced ε Unit).result = .ok () := rfl

@[simp] theorem emit_result (e : Event) : (emit e : Traced ε Unit).result = .ok () := rfl

@[simp] theorem mapError_result {δ : Type} (g : ε → δ) (x : Traced ε α) :
    (x.mapError g).result = x.result.mapError g := rfl

theorem mapError_result_of_ok {δ : Type} (g : ε → δ) {x : Traced ε α} {a : α}
    (h : x.result = .ok a) : (x.mapError g).result = .ok a := by
  rw [mapError_result, h]
  rfl

theorem mapError_result_of_error {δ : Type} (g : ε → δ) {x : Traced ε α} {e : ε}
    (h : x.result = .error e) : (x.mapError g).result = .error (g e) := by
  rw [mapError_result, h]
  rfl

/-- A last step that only maps the result reports nothing. -/
theorem bind_return (x : Traced ε α) (f : α → β) :
    (do let a ← x; return f a) = ⟨x.notes, x.result.map f⟩ := by
  cases h : x.result with
  | error e =>
      rw [bind_of_error _ h]
      rfl
  | ok a =>
      rw [bind_of_ok _ h, pure_notes, List.append_nil]
      rfl

theorem result_bind_eq_ok_iff {x : Traced ε α} {f : α → Traced ε β} {b : β} :
    (x >>= f).result = .ok b ↔ ∃ a, x.result = .ok a ∧ (f a).result = .ok b := by
  cases hx : x.result with
  | error e => simp [bind_of_error f hx]
  | ok a => simp [bind_of_ok f hx]

end Traced

/-! ## Steps -/

namespace Step

variable {σ ε α β : Type}

/-- A step ends with an outcome and leaves a state; what it reports on the way is left open. -/
def Yields (x : Step σ ε α) (s : σ) (outcome : Except ε α) (next : σ) : Prop :=
  (x s).1.result = outcome ∧ (x s).2 = next

variable {x : Step σ ε α} {f : α → Step σ ε β} {s next : σ}

theorem Yields.bind {a : α} {outcome : Except ε β} {last : σ} (hx : Yields x s (.ok a) next)
    (hf : Yields (f a) next outcome last) : Yields (x >>= f) s outcome last := by
  obtain ⟨hresult, hnext⟩ := hx
  show Yields (Step.bind x f) s outcome last
  unfold Yields Step.bind
  simp only [hresult, hnext]
  exact hf

theorem Yields.bind_error {e : ε} (hx : Yields x s (.error e) next) :
    Yields (x >>= f) s (.error e) next := by
  obtain ⟨hresult, hnext⟩ := hx
  show Yields (Step.bind x f) s (.error e) next
  unfold Yields Step.bind
  simp [hresult, hnext]

/-- A sequence that succeeds has parts that succeed. -/
theorem Yields.exists_of_bind_ok {b : β} {last : σ} (h : Yields (x >>= f) s (.ok b) last) :
    ∃ a middle, Yields x s (.ok a) middle ∧ Yields (f a) middle (.ok b) last := by
  cases hresult : (x s).1.result with
  | error e =>
      have herror : Yields (x >>= f) s (.error e) (x s).2 := Yields.bind_error ⟨hresult, rfl⟩
      cases herror.1.symm.trans h.1
  | ok a =>
      refine ⟨a, (x s).2, ⟨hresult, rfl⟩, ?_⟩
      have hrest : Yields (x >>= f) s (f a (x s).2).1.result (f a (x s).2).2 :=
        Yields.bind ⟨hresult, rfl⟩ ⟨rfl, rfl⟩
      exact ⟨hrest.1.symm.trans h.1, hrest.2.symm.trans h.2⟩

/-- An attempt succeeds with the outcome of what is attempted. -/
theorem Yields.attempt {δ : Type} {outcome : Except ε α} (h : Yields x s outcome next) :
    Yields (attempt x : Step σ δ (Except ε α)) s (.ok outcome) next := by
  obtain ⟨rfl, rfl⟩ := h
  exact ⟨rfl, rfl⟩

theorem yields_pure (a : α) (s : σ) : Yields (pure a : Step σ ε α) s (.ok a) s := ⟨rfl, rfl⟩

theorem yields_lift {t : Traced ε α} {outcome : Except ε α} (h : t.result = outcome) (s : σ) :
    Yields (lift t) s outcome s := ⟨h, rfl⟩

end Step

end BoundSql
