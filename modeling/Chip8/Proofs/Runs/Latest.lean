/-!
# The latest entry of a history

Much of what a machine holds is what was last put there: the byte at an address, the value of a timer,
the state of a key. `Latest` says which value the last entry of a history gives that gives one at all,
and what has come since; `Silent` that no entry gives any. Laws about runs are stated by these two and
proved along the history, one entry after the other, by `latest_cons` and `silent_cons`.
-/

namespace Chip8

variable {α β : Type} {gives : α → β → Prop} {entry : α} {rest history since : List α} {value : β}

/-- No entry of a history gives a value. -/
def Silent (gives : α → β → Prop) (history : List α) : Prop :=
  ∀ entry ∈ history, ∀ value, ¬ gives entry value

/-- The last entry of a history that gives a value gives this one, and `since` is what comes behind
that entry. -/
def Latest (gives : α → β → Prop) (history : List α) (value : β) (since : List α) : Prop :=
  ∃ earlier entry, history = earlier ++ entry :: since ∧ gives entry value ∧ Silent gives since

theorem silent_nil : Silent gives [] := by
  intro entry member
  cases member

theorem silent_cons :
    Silent gives (entry :: rest) ↔ (∀ value, ¬ gives entry value) ∧ Silent gives rest :=
  List.forall_mem_cons

theorem not_latest_nil : ¬ Latest gives [] value since := by
  rintro ⟨earlier, entry, split, _⟩
  cases earlier <;> cases split

/-- The latest entry of a history is its first one if no other gives a value. -/
theorem latest_cons :
    Latest gives (entry :: rest) value since ↔
      Latest gives rest value since ∨ since = rest ∧ gives entry value ∧ Silent gives rest := by
  constructor
  · rintro ⟨earlier, latest, split, given, silent⟩
    cases earlier with
    | nil =>
        cases split
        exact .inr ⟨rfl, given, silent⟩
    | cons first earlier =>
        cases split
        exact .inl ⟨earlier, latest, rfl, given, silent⟩
  · intro latest
    rcases latest with ⟨earlier, latest, rfl, given, silent⟩ | ⟨rfl, given, silent⟩
    · exact ⟨entry :: earlier, latest, rfl, given, silent⟩
    · exact ⟨[], entry, rfl, given, silent⟩

/-- A part of a state that each entry either puts to the value that it gives, or leaves as it is,
shows the latest value of the history, and what it showed before if there is none. -/
theorem foldl_eq_some_iff {σ : Type} (step : σ → α → σ) (view : σ → Option β)
    (given : ∀ state entry value, gives entry value → view (step state entry) = some value)
    (kept : ∀ state entry, (∀ value, ¬ gives entry value) → view (step state entry) = view state)
    (state : σ) (history : List α) :
    view (history.foldl step state) = some value ↔
      (∃ since, Latest gives history value since) ∨
        Silent gives history ∧ view state = some value := by
  induction history generalizing state with
  | nil => simp only [List.foldl_nil, not_latest_nil, silent_nil, exists_false, true_and, false_or]
  | cons entry rest ih =>
      rw [List.foldl_cons, ih, silent_cons]
      simp only [latest_cons, exists_or, exists_eq_left]
      by_cases quiet : ∀ value, ¬ gives entry value
      · rw [kept state entry quiet]
        simp only [quiet, not_false_eq_true, implies_true, true_and, false_and, or_false]
      · rcases Classical.not_forall_not.mp quiet with ⟨other, puts⟩
        have same : some other = some value ↔ gives entry value := by
          constructor
          · rintro ⟨⟩
            exact puts
          · intro also
            rw [← given state entry other puts, given state entry value also]
        rw [given state entry other puts, same]
        simp only [quiet, false_and, or_false, and_comm (b := gives entry value)]

end Chip8
