import Mathlib.Data.List.Nodup
import Prognosis.Check.CausalGraph

/-! The search for an order of computation. Where it ends without a cycle, every node has its
place after all that must come before it.
-/

namespace Prognosis.Dependencies

-----------------------------------------------------------------------------------------
-- Orders of nodes
-----------------------------------------------------------------------------------------

/-- All nodes, each once and after all that must come before it. -/
structure IsOrder (d : Dependencies) (order : List String) : Prop where
  nodes : order.Perm d.nodes
  before
    : ∀ earlier name later, order = earlier ++ name :: later
        → ∀ root ∈ d.predecessors name, root ∈ earlier

/-- Some nodes, each once and after those nodes that must come before it. -/
structure Sorted (d : Dependencies) (order : List String) : Prop where
  unique : order.Nodup
  known : ∀ name ∈ order, name ∈ d.nodes
  before
    : ∀ earlier name later, order = earlier ++ name :: later
        → ∀ root ∈ d.predecessors name, root ∈ d.nodes → root ∈ earlier

theorem Sorted.nil (d : Dependencies) : d.Sorted [] :=
  ⟨.nil, by simp, by simp⟩

/-- A new node may stand after a row that holds all that must come before it. -/
theorem Sorted.snoc {d : Dependencies} {order : List String} (sorted : d.Sorted order)
    {name : String} (node : name ∈ d.nodes) (fresh : name ∉ order)
    (ready : ∀ root ∈ d.predecessors name, root ∈ d.nodes → root ∈ order)
    : d.Sorted (order ++ [name]) := by
  refine ⟨?_, ?_, ?_⟩
  · exact List.nodup_append.mpr ⟨sorted.unique, by simp, by
      rintro other member last same rfl
      rw [List.mem_singleton] at same
      exact fresh (same ▸ member)⟩
  · intro other member
    rcases List.mem_append.mp member with old | last
    · exact sorted.known other old
    · rw [List.mem_singleton.mp last]
      exact node
  · intro earlier other later split root required known
    rcases List.eq_nil_or_concat later with rfl | ⟨front, last, rfl⟩
    · obtain ⟨rfl, same⟩ := List.append_inj' split rfl
      cases same
      exact ready root required known
    · have divided : order ++ [name] = (earlier ++ other :: front) ++ [last] := by
        rw [split]
        simp
      obtain ⟨rfl, -⟩ := List.append_inj' divided rfl
      exact sorted.before earlier other front rfl root required known

-----------------------------------------------------------------------------------------
-- The search
-----------------------------------------------------------------------------------------

/-- The order has grown to another one by nodes that are not on the path. -/
structure Grown (d : Dependencies) (path order grown : List String) : Prop where
  sorted : d.Sorted grown
  kept : ∀ name ∈ order, name ∈ grown
  apart : ∀ name ∈ path, name ∉ grown

mutual

/-- A visit grows a sorted order, and the node is in it. Witness: by recursion along the
search; what must come before a node is visited with the node on the path, so that it cannot
enter the order before them.
-/
theorem visit_grown {d : Dependencies} {path order grown : List String} {name : String}
    (sorted : d.Sorted order) (apart : ∀ other ∈ path, other ∉ order)
    (visited : visit d path order name = .ok grown)
    : Grown d path order grown ∧ (name ∈ d.nodes → name ∈ grown) := by
  unfold visit at visited
  split at visited
  case isTrue known =>
    cases visited
    exact ⟨⟨sorted, fun _ member => member, apart⟩, fun _ => by simpa using known⟩
  case isFalse new =>
    split at visited
    case h_1 => cases visited
    case h_2 offPath =>
      split at visited
      case h_2 absent =>
        cases visited
        exact ⟨⟨sorted, fun _ member => member, apart⟩, fun node => by simp_all⟩
      case h_1 node =>
        cases required : visitAll d (name :: path) order (d.predecessors name) with
        | error cycle => simp [required] at visited
        | ok before =>
            simp only [required] at visited
            cases visited
            have fresh : name ∉ order := by simpa using new
            have apartName : ∀ other ∈ name :: path, other ∉ order := by
              intro other member
              rcases List.mem_cons.mp member with rfl | below
              · exact fresh
              · exact apart other below
            obtain ⟨grown, all⟩ := visitAll_grown sorted apartName required
            have stillFresh : name ∉ before := grown.apart name (by simp)
            refine ⟨⟨?_, ?_, ?_⟩, fun _ => by simp⟩
            · exact grown.sorted.snoc (by simpa using node) stillFresh all
            · exact fun other member => List.mem_append_left _ (grown.kept other member)
            · intro other below member
              rcases List.mem_append.mp member with old | last
              · exact grown.apart other (List.mem_cons_of_mem _ below) old
              · rw [List.mem_singleton.mp last] at below
                simp_all
termination_by ((offPath d path).length, 0)
decreasing_by
  exact Prod.Lex.left _ _ (offPath_shorter d ‹_› ‹_›)

/-- Visits one after the other grow a sorted order, and all their nodes are in it. -/
theorem visitAll_grown {d : Dependencies} {path order grown names : List String}
    (sorted : d.Sorted order) (apart : ∀ other ∈ path, other ∉ order)
    (visited : visitAll d path order names = .ok grown)
    : Grown d path order grown ∧ ∀ name ∈ names, name ∈ d.nodes → name ∈ grown := by
  match names with
  | [] =>
      unfold visitAll at visited
      cases visited
      exact ⟨⟨sorted, fun _ member => member, apart⟩, by simp⟩
  | name :: rest =>
      unfold visitAll at visited
      cases first : visit d path order name with
      | error cycle => simp [first] at visited
      | ok next =>
          simp only [first] at visited
          obtain ⟨grownFirst, found⟩ := visit_grown sorted apart first
          obtain ⟨grownRest, others⟩ := visitAll_grown grownFirst.sorted grownFirst.apart visited
          refine ⟨⟨grownRest.sorted, ?_, grownRest.apart⟩, ?_⟩
          · exact fun other member => grownRest.kept other (grownFirst.kept other member)
          · intro other member node
            rcases List.mem_cons.mp member with rfl | later
            · exact grownRest.kept _ (found node)
            · exact others other later node
termination_by ((offPath d path).length, names.length)
decreasing_by
  · exact Prod.Lex.right _ (by simp)
  · exact Prod.Lex.right _ (by simp)

end

/-- An order that the search finds holds every node after all that must come before it. -/
theorem order_isOrder {d : Dependencies} {order : List String} (distinct : d.nodes.Nodup)
    (nodes : ∀ name, ∀ root ∈ d.predecessors name, root ∈ d.nodes)
    (found : d.order = .ok order)
    : d.IsOrder order := by
  obtain ⟨grown, all⟩ := visitAll_grown (Sorted.nil d) (by simp) found
  refine ⟨?_, ?_⟩
  · refine (List.perm_ext_iff_of_nodup grown.sorted.unique distinct).mpr fun name => ?_
    exact ⟨grown.sorted.known name, fun node => all name node node⟩
  · exact fun earlier name later split root required =>
      grown.sorted.before earlier name later split root required (nodes name root required)

-----------------------------------------------------------------------------------------
-- Orders as a computation
-----------------------------------------------------------------------------------------

/-- The nodes stand after all that must come before them, where some nodes stand before all. -/
def respects (d : Dependencies) : List String → List String → Bool
  | _, [] => true
  | front, name :: rest =>
      (d.predecessors name).all front.contains && respects d (front ++ [name]) rest

theorem respects_iff {d : Dependencies} {front order : List String}
    : d.respects front order = true
      ↔ ∀ earlier name later, order = earlier ++ name :: later
          → ∀ root ∈ d.predecessors name, root ∈ front ++ earlier := by
  induction order generalizing front with
  | nil => simp [respects]
  | cons first rest ih =>
      simp only [respects, Bool.and_eq_true, List.all_eq_true, List.contains_iff_mem, ih]
      constructor
      · rintro ⟨head, tail⟩ earlier name later split root required
        cases earlier with
        | nil =>
            cases split
            simpa using head root required
        | cons _ earlier =>
            cases split
            simpa using tail earlier name later rfl root required
      · intro before
        refine ⟨fun root required => ?_, fun earlier name later split root required => ?_⟩
        · simpa using before [] first rest rfl root required
        · simpa using before (first :: earlier) name later (by rw [split]; rfl) root required

theorem isOrder_of_respects {d : Dependencies} {order : List String}
    (nodes : order.isPerm d.nodes = true) (before : d.respects [] order = true)
    : d.IsOrder order :=
  ⟨List.isPerm_iff.mp nodes, by simpa using respects_iff.mp before⟩

end Prognosis.Dependencies
