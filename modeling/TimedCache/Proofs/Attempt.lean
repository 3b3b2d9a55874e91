import TimedCache.Attempt
import TimedCache.Proofs.Deployment.Notes

/-!
# Attempts that succeed

Where all parts of a piece of work are attempted, the whole asks what its parts ask
(`Program.sequence_always`), and **if the whole has succeeded, then every part has**: among the notes of
the whole there are those of the part, and they lead it to its success (`Program.walks_of_attemptAll`).

The other way round, the whole succeeds if every part does, each of them in what those before it have left
(`Program.run_attemptAll`).
-/

namespace TimedCache

/-! ### The first failure -/

theorem firstFailure_eq_ok_iff {outcomes : List (Except CacheError Unit)} :
    firstFailure outcomes = .ok () ↔ ∀ outcome ∈ outcomes, outcome = .ok () := by
  induction outcomes with
  | nil => exact ⟨fun _ => List.forall_mem_nil _, fun _ => rfl⟩
  | cons outcome outcomes ih =>
      rw [List.forall_mem_cons]
      cases outcome with
      | error failure => exact ⟨nofun, fun all => nomatch all.1⟩
      | ok done =>
          rw [firstFailure, ih]
          exact ⟨fun rest => ⟨rfl, rest⟩, And.right⟩

/-- A failure is the first one if everything in front of it has succeeded. -/
theorem firstFailure_eq_error_iff {outcomes : List (Except CacheError Unit)} {failure : CacheError} :
    firstFailure outcomes = .error failure ↔
      ∃ front back, outcomes = front ++ .error failure :: back ∧
        ∀ outcome ∈ front, outcome = .ok () := by
  induction outcomes with
  | nil =>
      refine ⟨nofun, ?_⟩
      rintro ⟨front, back, split, -⟩
      exact absurd split (List.append_ne_nil_of_right_ne_nil front (List.cons_ne_nil _ _)).symm
  | cons outcome outcomes ih =>
      cases outcome with
      | error other =>
          rw [firstFailure]
          constructor
          · rintro ⟨⟩
            exact ⟨[], outcomes, rfl, List.forall_mem_nil _⟩
          · rintro ⟨_ | ⟨first, front⟩, back, split, succeeded⟩
            · exact (List.cons.inj split).1
            · cases (List.cons.inj split).1.trans (succeeded first List.mem_cons_self)
      | ok done =>
          rw [firstFailure, ih]
          constructor
          · rintro ⟨front, back, rfl, succeeded⟩
            exact ⟨.ok () :: front, back, rfl, List.forall_mem_cons.mpr ⟨rfl, succeeded⟩⟩
          · rintro ⟨_ | ⟨first, front⟩, back, split, succeeded⟩
            · cases (List.cons.inj split).1
            · exact ⟨front, back, (List.cons.inj split).2, (List.forall_mem_cons.mp succeeded).2⟩

namespace Program

/-! ### Parts -/

theorem sequence_always {α : Type} {asks : Call → Prop} {parts : List (Program α)}
    (always : ∀ part ∈ parts, part.Always asks fun _ => True) :
    (sequence parts).Always asks fun _ => True := by
  induction parts with
  | nil => trivial
  | cons part parts ih =>
      rw [List.forall_mem_cons] at always
      exact always.1.bind fun a _ => (ih always.2).bind fun rest _ => trivial

variable {parts : List (Program (Except CacheError Unit))} {notes : List Note}
  {part : Program (Except CacheError Unit)}

/-- Where no result is a failure, every part has succeeded. -/
theorem walks_of_sequence {results : List (Except CacheError Unit)}
    (walks : (sequence parts).Walks notes (.done results))
    (succeeds : firstFailure results = .ok ()) (mem : part ∈ parts) :
    ∃ own, own ⊆ notes ∧ part.Walks own (.done (.ok ())) := by
  induction parts generalizing notes results with
  | nil => cases mem
  | cons first parts ih =>
      obtain ⟨front, back, result, rfl, own, rest⟩ := walks_bind_done walks
      obtain ⟨middle, final, others, rfl, later, ends⟩ := walks_bind_done rest
      cases ends
      cases result with
      | error failure => cases succeeds
      | ok done =>
          obtain rfl | mem := List.mem_cons.mp mem
          · exact ⟨front, List.subset_append_left front _, own⟩
          · obtain ⟨own, sub, walked⟩ := ih later succeeds mem
            rw [List.append_nil]
            exact ⟨own, List.subset_append_of_subset_right front sub, walked⟩

/-- **An attempt that has succeeded**: every part of it has. -/
theorem walks_of_attemptAll (walks : (attemptAll parts).Walks notes (.done (.ok ())))
    (mem : part ∈ parts) : ∃ own, own ⊆ notes ∧ part.Walks own (.done (.ok ())) := by
  obtain ⟨front, back, results, rfl, through, ends⟩ := walks_bind_done walks
  generalize succeeds : firstFailure results = outcome at ends
  cases ends
  obtain ⟨own, sub, walked⟩ := walks_of_sequence through succeeds mem
  exact ⟨own, List.subset_append_of_subset_left _ sub, walked⟩

section Run

variable {ι σ : Type} {answer : (call : Call) → σ → call.Answer × σ}
  {part : ι → Program (Except CacheError Unit)} {items : List ι}

theorem run_sequence {Inv : List ι → σ → Prop}
    (step : ∀ {attempted item s}, item ∈ items → Inv attempted s →
      ((part item).run answer s).1 = .ok () ∧
        Inv (attempted ++ [item]) ((part item).run answer s).2) {s : σ} (start : Inv [] s) :
    (∀ outcome ∈ ((sequence (items.map part)).run answer s).1, outcome = .ok ()) ∧
      Inv items ((sequence (items.map part)).run answer s).2 := by
  induction items generalizing Inv s with
  | nil => exact ⟨List.forall_mem_nil _, start⟩
  | cons item items ih =>
      obtain ⟨first, kept⟩ := step List.mem_cons_self start
      obtain ⟨others, final⟩ := @ih (fun attempted => Inv (item :: attempted))
        (fun mem inv => step (List.mem_cons_of_mem _ mem) inv) _ kept
      rw [List.map_cons, sequence, run_bind, run_bind]
      exact ⟨List.forall_mem_cons.mpr ⟨first, others⟩, final⟩

/-- **An attempt succeeds** if every part does in what the parts before it have left. -/
theorem run_attemptAll {Inv : List ι → σ → Prop}
    (step : ∀ {attempted item s}, item ∈ items → Inv attempted s →
      ((part item).run answer s).1 = .ok () ∧
        Inv (attempted ++ [item]) ((part item).run answer s).2) {s : σ} (start : Inv [] s) :
    ((attemptAll (items.map part)).run answer s).1 = .ok () ∧
      Inv items ((attemptAll (items.map part)).run answer s).2 := by
  obtain ⟨succeeded, final⟩ := run_sequence step start
  rw [attemptAll, run_bind]
  exact ⟨firstFailure_eq_ok_iff.mpr succeeded, final⟩

end Run

end Program

end TimedCache
