import Mathlib

/-! Rust panics as `Except String`: `unwrap` on a missing value. The bind
lemmas hold for any error type: they let `simp` run a computation that does not
fail step by step, and the inversion peels one that succeeded apart without
unfolding its steps again. -/

namespace Panic

variable {ε α β : Type}

/-- `Option::unwrap`. -/
def unwrap : Option α → Except String α
  | some value => .ok value
  | none => .error "called `Option::unwrap()` on a `None` value"

@[simp] theorem unwrap_some (value : α) : unwrap (some value) = .ok value := rfl

@[simp] theorem unwrap_none : unwrap (none : Option α) = .error
    "called `Option::unwrap()` on a `None` value" := rfl

@[simp] theorem ok_bind (value : α) (next : α → Except ε β) :
    (Except.ok value >>= next) = next value := rfl

@[simp] theorem error_bind (message : ε) (next : α → Except ε β) :
    (Except.error message >>= next) = .error message := rfl

@[simp] theorem pure_eq_ok (value : α) : (pure value : Except ε α) = .ok value := rfl

@[simp] theorem throw_eq_error (message : ε) : (throw message : Except ε α) = .error message := rfl

@[simp] theorem map_ok (f : α → β) (value : α) : (Except.ok value : Except ε α).map f = .ok (f value) := rfl

@[simp] theorem map_error_ok {ε' : Type} (value : α) (f : ε → ε') :
    (Except.ok value : Except ε α).mapError f = .ok value := rfl

theorem bind_eq_ok {run : Except ε α} {next : α → Except ε β} {result : β}
    (done : (run >>= next) = .ok result) : ∃ value, run = .ok value ∧ next value = .ok result := by
  cases run with
  | error message => cases done
  | ok value => exact ⟨value, rfl, done⟩

theorem bind_eq_ok_iff {run : Except ε α} {next : α → Except ε β} {result : β} :
    (run >>= next) = .ok result ↔ ∃ value, run = .ok value ∧ next value = .ok result := by
  constructor
  · exact bind_eq_ok
  · rintro ⟨value, ran, rest⟩
    rw [ran, ok_bind, rest]

theorem map_eq_ok {run : Except ε α} {f : α → β} {result : β} (done : run.map f = .ok result) :
    ∃ value, run = .ok value ∧ result = f value := by
  cases run with
  | error message => cases done
  | ok value =>
      simp only [map_ok, Except.ok.injEq] at done
      exact ⟨value, rfl, done.symm⟩

theorem map_error_eq_ok {ε' : Type} {run : Except ε α} {f : ε → ε'} {result : α} :
    run.mapError f = .ok result ↔ run = .ok result := by
  cases run <;> simp [Except.mapError]

/-! A run that may fail, but never with an error that `bad` singles out (a panic
among the errors a function returns): the first step and every continuation
after an `ok` avoid it. -/

/-- `run` fails with no error that `bad` picks out. -/
def Avoids (bad : ε → Prop) (run : Except ε α) : Prop := ∀ error, run = .error error → ¬ bad error

theorem avoids_ok (bad : ε → Prop) (value : α) : Avoids bad (.ok value : Except ε α) := by
  intro error failed
  cases failed

theorem avoids_error {bad : ε → Prop} {error : ε} (good : ¬ bad error) :
    Avoids bad (.error error : Except ε α) := by
  intro other failed
  cases failed
  exact good

theorem Avoids.bind {bad : ε → Prop} {run : Except ε α} {next : α → Except ε β}
    (first : Avoids bad run) (rest : ∀ value, run = .ok value → Avoids bad (next value)) :
    Avoids bad (run >>= next) := by
  cases run with
  | error error =>
      intro other failed
      cases failed
      exact first error rfl
  | ok value => exact rest value rfl

/-! The `filter_map(..).collect()` of a fallible closure: each item either fails
the whole loop or keeps an optional value. -/

section FilterMap
variable {f : α → Except ε (Option β)}

theorem filter_map_m_cons (item : α) (items : List α) :
    (item :: items).filterMapM f = (f item >>= fun kept => match kept with
      | none => items.filterMapM f
      | some value => (items.filterMapM f).map (value :: ·)) := by
  rw [List.filterMapM_cons]
  cases f item with
  | error error => rfl
  | ok kept =>
      cases kept with
      | none => rfl
      | some value => cases items.filterMapM f <;> rfl

/-- Every value the loop keeps comes from an item whose closure returned it. -/
theorem mem_of_filter_map_m_eq_ok :
    ∀ {items : List α} {kept : List β}, items.filterMapM f = .ok kept →
      ∀ value ∈ kept, ∃ item ∈ items, f item = .ok (some value)
  | [], kept, done => by
      rw [List.filterMapM_nil, pure_eq_ok] at done
      cases done
      simp
  | item :: items, kept, done => by
      rw [filter_map_m_cons] at done
      obtain ⟨first, ranFirst, ranRest⟩ := bind_eq_ok done
      intro value mem
      cases first with
      | none =>
          obtain ⟨source, inItems, hit⟩ := mem_of_filter_map_m_eq_ok ranRest value mem
          exact ⟨source, List.mem_cons_of_mem item inItems, hit⟩
      | some head =>
          -- the head's value is kept in front of the rest
          obtain ⟨tail, rest, cons⟩ := map_eq_ok ranRest
          subst cons
          rcases List.mem_cons.mp mem with same | inTail
          · exact ⟨item, List.mem_cons_self, same ▸ ranFirst⟩
          · obtain ⟨source, inItems, hit⟩ := mem_of_filter_map_m_eq_ok rest value inTail
            exact ⟨source, List.mem_cons_of_mem item inItems, hit⟩

/-- A loop whose closure succeeds on every item succeeds. -/
theorem filter_map_m_ok :
    ∀ {items : List α}, (∀ item ∈ items, ∃ kept, f item = .ok kept) →
      ∃ kept, items.filterMapM f = .ok kept
  | [], _ => ⟨[], rfl⟩
  | item :: items, succeeds => by
      obtain ⟨first, ranFirst⟩ := succeeds item List.mem_cons_self
      obtain ⟨tail, ranRest⟩ := filter_map_m_ok fun other mem =>
        succeeds other (List.mem_cons_of_mem item mem)
      rw [filter_map_m_cons, ranFirst, ok_bind]
      cases first with
      | none => exact ⟨tail, ranRest⟩
      | some value => exact ⟨value :: tail, by rw [ranRest]; rfl⟩

/-- A loop with an item whose closure fails fails, with that error or an
earlier item's. -/
theorem filter_map_m_error :
    ∀ {items : List α} {item : α} {error : ε}, item ∈ items → f item = .error error →
      ∃ first, items.filterMapM f = .error first
  | [], _, _, mem, _ => by cases mem
  | head :: items, item, error, mem, failed => by
      rw [filter_map_m_cons]
      cases ranHead : f head with
      | error first => exact ⟨first, rfl⟩
      | ok kept =>
          -- the head is kept or skipped, so the failing item is further on
          have later : item ∈ items := by
            rcases List.mem_cons.mp mem with same | inTail
            · subst same
              rw [ranHead] at failed
              cases failed
            · exact inTail
          obtain ⟨first, ranRest⟩ := filter_map_m_error later failed
          cases kept with
          | none => exact ⟨first, ranRest⟩
          | some value => exact ⟨first, by rw [ranRest]; rfl⟩

end FilterMap

end Panic
