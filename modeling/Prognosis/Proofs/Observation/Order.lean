import Mathlib.Data.List.Sort
import Prognosis.Observation.Series
import Prognosis.Proofs.Calendar.Timeline

/-! The order of observations by their days. Points of one day keep the order that they had, so what
comes out depends on that order exactly where different points share a day.
-/

namespace Prognosis

variable {α : Type} {points others : List (ObservedPoint α)} {p q : ObservedPoint α}

/-- The points are in the order of their days. -/
def InOrder (points : List (ObservedPoint α)) : Prop :=
  points.Pairwise fun p q => p.date.ordinal ≤ q.date.ordinal

namespace ObservedPoint

theorem notAfter_trans (p q r : ObservedPoint α) (first : p.date.notAfter q.date = true)
    (second : q.date.notAfter r.date = true)
    : p.date.notAfter r.date = true :=
  Date.notAfter_iff.mpr
    (Nat.le_trans (Date.notAfter_iff.mp first) (Date.notAfter_iff.mp second))

theorem notAfter_total (p q : ObservedPoint α)
    : (p.date.notAfter q.date || q.date.notAfter p.date) = true := by
  rw [Bool.or_eq_true, Date.notAfter_iff, Date.notAfter_iff]
  exact Nat.le_total ..

theorem chronological_perm (points : List (ObservedPoint α)) : (chronological points).Perm points :=
  List.mergeSort_perm ..

theorem mem_chronological : p ∈ chronological points ↔ p ∈ points :=
  (chronological_perm points).mem_iff

theorem chronological_inOrder (points : List (ObservedPoint α))
    : InOrder (chronological points) :=
  (List.pairwise_mergeSort notAfter_trans notAfter_total points).imp Date.notAfter_iff.mp

/-- Points of one day keep their order: they are in order already, and the sorted list has no more
of them.
-/
theorem filter_chronological (points : List (ObservedPoint α)) (day : Date)
    : (chronological points).filter (·.date = day) = points.filter (·.date = day) := by
  have ordered : (points.filter (·.date = day)).Pairwise fun p q => p.date.notAfter q.date = true :=
    List.pairwise_of_forall_mem_list fun p left q right => by
      have same : p.date = q.date := by simp_all
      exact Date.notAfter_iff.mpr (by rw [same])
  have kept : (points.filter (·.date = day)).Sublist (chronological points) :=
    List.sublist_mergeSort notAfter_trans notAfter_total ordered List.filter_sublist
  have inside := kept.filter (·.date = day)
  simp only [List.filter_filter, Bool.and_self] at inside
  refine (inside.eq_of_length ?_).symm
  exact ((chronological_perm points).filter _).length_eq.symm

/-- In what order points come makes no difference where those of one day are the same point. -/
theorem chronological_eq_of_perm (perm : points.Perm others)
    (same : ∀ p ∈ points, ∀ q ∈ points, p.date = q.date → p = q)
    : chronological points = chronological others := by
  have all := (chronological_perm points).trans (perm.trans (chronological_perm others).symm)
  refine all.eq_of_pairwise (fun p q left right less more => ?_) (chronological_inOrder points)
    (chronological_inOrder others)
  exact same p (mem_chronological.mp left) q (perm.mem_iff.mpr (mem_chronological.mp right))
    (Date.eq_of_ordinal (Nat.le_antisymm less more))

/-- It makes a difference where two of one day are not. -/
theorem eq_of_chronological_eq {rest : List (ObservedPoint α)} (day : p.date = q.date)
    (same : chronological (p :: q :: rest) = chronological (q :: p :: rest))
    : p = q := by
  have firsts := congrArg (List.filter (·.date = q.date)) same
  rw [filter_chronological, filter_chronological] at firsts
  simp only [List.filter_cons, day, decide_true, if_true] at firsts
  exact (List.cons.inj firsts).1

end ObservedPoint

/-- Of points in order the last one is on the latest day. -/
theorem InOrder.le_getLast? (ordered : InOrder points) {latest : ObservedPoint α}
    (last : points.getLast? = some latest)
    : ∀ p ∈ points, p.date.ordinal ≤ latest.date.ordinal := by
  obtain ⟨front, rfl⟩ := List.getLast?_eq_some_iff.mp last
  intro p member
  rcases List.mem_append.mp member with before | here
  · exact (List.pairwise_append.mp ordered).2.2 p before latest List.mem_cons_self
  · rw [List.mem_singleton.mp here]

/-- A point that is later than all others is the last one. -/
theorem InOrder.getLast?_eq_some (ordered : InOrder points) (member : p ∈ points)
    (later : ∀ q ∈ points, q = p ∨ q.date.ordinal < p.date.ordinal)
    : points.getLast? = some p := by
  have nonempty := List.ne_nil_of_mem member
  have last := List.getLast?_eq_some_getLast nonempty
  have bound := ordered.le_getLast? last p member
  rcases later _ (List.getLast_mem nonempty) with same | less
  · rw [last, same]
  · omega

end Prognosis
