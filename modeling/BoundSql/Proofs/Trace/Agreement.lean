import BoundSql.Proofs.Trace.Outcome
import Mathlib.Data.List.Forall2

/-!
# Computations that agree

Two computations agree up to a relation if they report the same events and end alike:
with the same error, or with related results.  Parts that agree make up sequences that
agree, so a comparison of two runs follows the text of the program once.

Log entries are not compared; they show the values that statements bind.
-/

namespace BoundSql

/-- Two outcomes that are the same error or related results. -/
inductive Agree {ε α β : Type} (R : α → β → Prop) : Except ε α → Except ε β → Prop where
  | ok {a : α} {b : β} (h : R a b) : Agree R (.ok a) (.ok b)
  | error (e : ε) : Agree R (.error e) (.error e)

namespace Agree

variable {ε α β α' β' : Type} {R : α → β → Prop} {S : α' → β' → Prop}

theorem bind {x : Except ε α} {y : Except ε β} {f : α → Except ε α'} {g : β → Except ε β'}
    (hxy : Agree R x y) (hfg : ∀ a b, R a b → Agree S (f a) (g b)) :
    Agree S (x >>= f) (y >>= g) := by
  cases hxy with
  | ok h => exact hfg _ _ h
  | error e => exact .error e

/-- A common first part gives both sides the same result to go on with. -/
theorem bind_same (x : Except ε α) {f : α → Except ε α'} {g : α → Except ε β'}
    (hfg : ∀ a, Agree S (f a) (g a)) : Agree S (x >>= f) (x >>= g) := by
  cases x with
  | ok a => exact hfg a
  | error e => exact .error e

/-- A function that does not tell related results apart gives equal outcomes. -/
theorem map_eq {γ : Type} {x : Except ε α} {y : Except ε β} {f : α → γ} {g : β → γ}
    (hxy : Agree R x y) (hfg : ∀ a b, R a b → f a = g b) : x.map f = y.map g := by
  cases hxy with
  | ok h => exact congrArg Except.ok (hfg _ _ h)
  | error e => rfl

/-- Outcomes that agree position by position agree as a whole. -/
theorem mapM_id {xs : List (Except ε α)} {ys : List (Except ε β)}
    (h : List.Forall₂ (Agree R) xs ys) :
    Agree (List.Forall₂ R) (xs.mapM id) (ys.mapM id) := by
  induction h with
  | nil => exact .ok .nil
  | cons hxy _ ih =>
      rw [List.mapM_cons, List.mapM_cons]
      refine hxy.bind fun a b hab => ?_
      exact ih.bind fun as bs hall => .ok (.cons hab hall)

end Agree

/-- Functions that map related positions to related values map related lists to related lists. -/
theorem forall₂_mapIdx {α β α' β' : Type} {R : α → β → Prop} {S : α' → β' → Prop}
    {xs : List α} {ys : List β} (h : List.Forall₂ R xs ys) {f : Nat → α → α'} {g : Nat → β → β'}
    (hfg : ∀ i a b, R a b → S (f i a) (g i b)) :
    List.Forall₂ S (xs.mapIdx f) (ys.mapIdx g) := by
  induction h generalizing f g with
  | nil => exact .nil
  | cons hab _ ih =>
      rw [List.mapIdx_cons, List.mapIdx_cons]
      exact .cons (hfg 0 _ _ hab) (ih fun i a b hR => hfg (i + 1) a b hR)

theorem isEmpty_eq_of_forall₂ {α β : Type} {R : α → β → Prop} {xs : List α} {ys : List β}
    (h : List.Forall₂ R xs ys) : xs.isEmpty = ys.isEmpty := by
  cases h with
  | nil => rfl
  | cons _ _ => rfl

theorem length_flatMap_eq_of_forall₂ {α β α' β' : Type} {R : α → β → Prop} {xs : List α}
    {ys : List β} (h : List.Forall₂ R xs ys) {f : α → List α'} {g : β → List β'}
    (hfg : ∀ a b, R a b → (f a).length = (g b).length) :
    (xs.flatMap f).length = (ys.flatMap g).length := by
  induction h with
  | nil => rfl
  | cons hab _ ih =>
      rw [List.flatMap_cons, List.flatMap_cons, List.length_append, List.length_append,
        hfg _ _ hab, ih]

namespace Traced

variable {ε α β α' β' : Type}

/-- Two computations that report the same events and end alike. -/
structure Agree (R : α → β → Prop) (x : Traced ε α) (y : Traced ε β) : Prop where
  events : x.events = y.events
  result : BoundSql.Agree R x.result y.result

namespace Agree

variable {R : α → β → Prop} {S : α' → β' → Prop}

theorem pure {a : α} {b : β} (h : R a b) : Agree R (pure a : Traced ε α) (Pure.pure b) :=
  ⟨rfl, .ok h⟩

theorem fail (e : ε) : Agree R (fail e : Traced ε α) (Traced.fail e) := ⟨rfl, .error e⟩

theorem ofExcept {x : Except ε α} {y : Except ε β} (h : BoundSql.Agree R x y) :
    Agree R (ofExcept x) (Traced.ofExcept y) := ⟨rfl, h⟩

theorem bind {x : Traced ε α} {y : Traced ε β} {f : α → Traced ε α'} {g : β → Traced ε β'}
    (hxy : Agree R x y) (hfg : ∀ a b, R a b → Agree S (f a) (g b)) :
    Agree S (x >>= f) (y >>= g) := by
  obtain ⟨notes, r⟩ := x
  obtain ⟨notes', r'⟩ := y
  obtain ⟨hevents, hresult⟩ := hxy
  cases hresult with
  | error e => exact ⟨hevents, .error e⟩
  | @ok a b hab =>
      have hnext := hfg a b hab
      refine ⟨?_, hnext.result⟩
      show Note.events (notes ++ (f a).notes) = Note.events (notes' ++ (g b).notes)
      rw [Note.events_append, Note.events_append]
      exact congrArg₂ (· ++ ·) hevents hnext.events

/-- A common first part gives both sides the same result to go on with. -/
theorem bind_same (x : Traced ε α) {f : α → Traced ε α'} {g : α → Traced ε β'}
    (hfg : ∀ a, Agree S (f a) (g a)) : Agree S (x >>= f) (x >>= g) := by
  -- the same computation agrees with itself up to equality
  have hsame : BoundSql.Agree Eq x.result x.result := by
    cases x.result with
    | ok a => exact .ok rfl
    | error e => exact .error e
  refine bind ⟨rfl, hsame⟩ fun a b hab => ?_
  subst hab
  exact hfg a

/-- Whatever is logged, what follows decides. -/
theorem log_bind (entry entry' : LogEntry) {x : Traced ε α} {y : Traced ε β} (h : Agree R x y) :
    Agree R (do log entry; x) (do Traced.log entry'; y) := by
  have hlog : Agree (fun _ _ => True) (log entry : Traced ε Unit) (Traced.log entry') :=
    ⟨rfl, .ok trivial⟩
  exact hlog.bind fun _ _ _ => h

end Agree

end Traced

end BoundSql
