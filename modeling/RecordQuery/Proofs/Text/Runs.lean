/-! The run of characters that starts a text, and what stops it. -/
namespace RecordQuery.Text

variable {p : α → Bool} {run rest : List α}

/-- The first member, if there is one, fails the test. -/
def Stops (p : α → Bool) (rest : List α) : Prop := ∀ a ∈ rest.head?, p a = false

@[simp] theorem stops_nil (p : α → Bool) : Stops p [] := by simp [Stops]

@[simp] theorem stops_cons (p : α → Bool) (a : α) (rest : List α) :
    Stops p (a :: rest) ↔ p a = false := by
  simp [Stops]

instance (p : α → Bool) : (rest : List α) → Decidable (Stops p rest)
  | [] => isTrue (stops_nil p)
  | a :: rest => decidable_of_iff _ (stops_cons p a rest).symm

/-- What is said of the characters of a text is decided on these alone. -/
instance (priority := 2000) decidableForallChar (p : Char → Prop) [DecidablePred p] (s : List Char) :
    Decidable (∀ c ∈ s, p c) := List.decidableBAll p s

theorem stops_append {s : List α} (nonempty : s ≠ []) (stop : Stops p s) (rest : List α) :
    Stops p (s ++ rest) := by
  obtain ⟨a, s, rfl⟩ := List.exists_cons_of_ne_nil nonempty
  exact (stops_cons p a _).mpr ((stops_cons p a s).mp stop)

theorem stops_of_forall {s : List α} (all : ∀ a ∈ s, p a = false) : Stops p s :=
  fun a member => all a (List.mem_of_mem_head? member)

theorem stops_reverse_of_forall {s : List α} (all : ∀ a ∈ s, p a = false) : Stops p s.reverse :=
  stops_of_forall fun a member => all a (List.mem_reverse.mp member)

theorem stops_of_append {s t : List α} (stop : Stops p (s ++ t)) : Stops p s := by
  cases s with
  | nil => exact stops_nil p
  | cons a s => exact (stops_cons ..).mpr ((stops_cons ..).mp stop)

theorem stops_or {q : α → Bool} : Stops (fun a => p a || q a) rest ↔ Stops p rest ∧ Stops q rest := by
  cases rest <;> simp

theorem stops_reverse_append {t : List α} (nonempty : t ≠ []) (finish : Stops p t.reverse) (s : List α) :
    Stops p (s ++ t).reverse := by
  rw [List.reverse_append]
  exact stops_append (by simpa using nonempty) finish _

theorem stops_reverse_of_append {s t : List α} (finish : Stops p (s ++ t).reverse) : Stops p t.reverse := by
  rw [List.reverse_append] at finish
  exact stops_of_append finish

theorem stops_reverse_of_cons {a : α} {s : List α} (finish : Stops p (a :: s).reverse) : Stops p s.reverse :=
  stops_reverse_of_append (s := [a]) finish

theorem takeWhile_run (inside : ∀ a ∈ run, p a = true) (stop : Stops p rest) :
    (run ++ rest).takeWhile p = run := by
  rw [List.takeWhile_append_of_pos inside]
  cases rest with
  | nil => simp
  | cons a rest => simp [(stops_cons p a rest).mp stop]

theorem dropWhile_run (inside : ∀ a ∈ run, p a = true) (stop : Stops p rest) :
    (run ++ rest).dropWhile p = rest := by
  rw [List.dropWhile_append_of_pos inside]
  cases rest with
  | nil => rfl
  | cons a rest => simp [(stops_cons p a rest).mp stop]

theorem takeWhile_append_stops (stop : Stops p rest) (s : List α) : (s ++ rest).takeWhile p = s.takeWhile p := by
  induction s with
  | nil => cases rest <;> simp_all
  | cons a s ih => simp [List.takeWhile_cons, ih]

theorem dropWhile_stops (stop : Stops p rest) : rest.dropWhile p = rest := by
  have inside : ∀ a ∈ ([] : List α), p a = true := by simp
  exact dropWhile_run inside stop

/-- What is dropped from the end does not reach beyond a member that is kept. -/
theorem reverse_dropWhile_append {s : List α} (finish : Stops p s.reverse) (t : List α) :
    ((s ++ t).reverse.dropWhile p).reverse = s ++ (t.reverse.dropWhile p).reverse := by
  rw [List.reverse_append, List.dropWhile_append]
  cases dropped : t.reverse.dropWhile p with
  | nil => simp [dropWhile_stops finish]
  | cons c t => simp

end RecordQuery.Text
