import Prognosis.Proofs.Check.Order
import Prognosis.Proofs.Check.Reads
import Prognosis.Proofs.Simulation.Validity

/-! A scenario without errors can be simulated in every order that respects its dependencies: the
plans of such orders are sound.
-/

namespace Prognosis

variable {α : Type} [Scalar α]

-----------------------------------------------------------------------------------------
-- Declarations and their symbols
-----------------------------------------------------------------------------------------

namespace Scenario.Accepted

variable {s : Scenario α} {graph : CausalGraph}

theorem mem_symbols (accepted : s.Accepted graph) {name : String} {symbol : Symbol α}
    : (Symbols.ofScenario s).find? name = some symbol
      ↔ s.declarations[symbol.index]? = some symbol.declaration
        ∧ symbol.declaration.name? = some symbol.name ∧ symbol.name = name := by
  rw [Symbols.find?_eq_some_iff accepted.distinct, accepted.symbols, Symbols.mem_named,
    List.mem_zipIdx_iff_getElem?, and_assoc]

/-- A named value owns its name, at its place. -/
theorem find?_quantity (accepted : s.Accepted graph) {q : Quantity α}
    (member : q ∈ s.quantities)
    : ∃ index, s.declarations[index]? = some (.quantity q)
        ∧ (Symbols.ofScenario s).find? q.name = some ⟨q.name, index, .quantity q⟩ := by
  obtain ⟨d, declared, is⟩ := List.mem_filterMap.mp member
  obtain ⟨index, placed⟩ := List.mem_iff_getElem?.mp declared
  cases d with
  | quantity other =>
      cases is
      exact ⟨index, placed, accepted.mem_symbols.mpr ⟨placed, rfl, rfl⟩⟩
  | branch _ | simulate _ | watch _ | calibrate _ | imported _ => cases is

/-- A name within a scope is that of a named value. -/
theorem quantity_of_admits (accepted : s.Accepted graph) {scope : Check.Scope} {root : String}
    (admits : (Symbols.ofScenario s).Admits scope root)
    : ∃ q ∈ s.quantities, q.name = root
        ∧ ∃ index, s.declarations[index]? = some (.quantity q)
          ∧ match scope with
            | .only _ => False
            | .declared => True
            | .constants => q.isConstant = true
            | .constantsBefore bound => q.isConstant = true ∧ index < bound := by
  obtain ⟨symbol, q, found, is, within⟩ := admits
  obtain ⟨placed, named, rfl⟩ := accepted.mem_symbols.mp found
  rw [is] at placed named
  refine ⟨q, ?_, Option.some.inj named, symbol.index, placed, within⟩
  exact List.mem_filterMap.mpr ⟨_, List.mem_of_getElem? placed, rfl⟩

/-- Declarations have different names, if they have any. -/
theorem declarations_distinct (accepted : s.Accepted graph)
    : (s.declarations.filterMap (·.name?)).Nodup := by
  have names : (Symbols.ofScenario s).map (·.name) = s.declarations.filterMap (·.name?) := by
    rw [accepted.symbols, Symbols.named, List.map_filterMap]
    have along (index : Nat) (ds : List (Declaration α))
        : (ds.zipIdx index).filterMap (fun entry : Declaration α × Nat =>
            (entry.1.name?.map fun name : String => (⟨name, entry.2, entry.1⟩ : Symbol α)).map
              Symbol.name)
          = ds.filterMap (·.name?) := by
      induction ds generalizing index with
      | nil => rfl
      | cons d rest ih =>
          rw [List.zipIdx_cons, List.filterMap_cons, List.filterMap_cons, ih]
          cases d.name? <;> rfl
    exact along 0 s.declarations
  exact names ▸ accepted.distinct

/-- Named values have different names. -/
theorem quantities_distinct (accepted : s.Accepted graph)
    : (s.quantities.map (·.name)).Nodup := by
  have part : (s.quantities.map (·.name)).Sublist (s.declarations.filterMap (·.name?)) := by
    simp only [quantities]
    induction s.declarations with
    | nil => exact .slnil
    | cons d rest ih =>
        cases d with
        | quantity q => exact ih.cons_cons q.name
        | branch b => exact ih.cons b.name
        | imported i => exact ih.cons i.localName
        | simulate _ | watch _ | calibrate _ => exact ih
  exact accepted.declarations_distinct.sublist part

/-- So have branches. -/
theorem branches_distinct (accepted : s.Accepted graph)
    : (s.branches.map (·.name)).Nodup := by
  have part : (s.branches.map (·.name)).Sublist (s.declarations.filterMap (·.name?)) := by
    simp only [branches]
    induction s.declarations with
    | nil => exact .slnil
    | cons d rest ih =>
        cases d with
        | quantity q => exact ih.cons q.name
        | branch b => exact ih.cons_cons b.name
        | imported i => exact ih.cons i.localName
        | simulate _ | watch _ | calibrate _ => exact ih
  exact accepted.declarations_distinct.sublist part

end Scenario.Accepted

-----------------------------------------------------------------------------------------
-- Dependencies of a scenario
-----------------------------------------------------------------------------------------

/-- What variables and impacts of a scenario depend on. -/
def Scenario.dependencies (s : Scenario α) : Dependencies :=
  .ofSymbols (Symbols.ofScenario s) s

namespace Dependencies

theorem mem_distinct {names : List String} {name : String}
    : name ∈ distinct names ↔ name ∈ names := by
  have along (kept : List String)
      : name ∈ names.foldl (fun kept name =>
            if kept.contains name then kept else kept ++ [name]) kept
          ↔ name ∈ kept ∨ name ∈ names := by
    induction names generalizing kept with
    | nil => simp
    | cons first rest ih =>
        rw [List.foldl_cons, ih]
        split
        case isTrue known =>
          have old : first ∈ kept := by simpa using known
          constructor
          · rintro (there | later)
            · exact Or.inl there
            · exact Or.inr (List.mem_cons_of_mem _ later)
          · rintro (there | member)
            · exact Or.inl there
            · rcases List.mem_cons.mp member with rfl | later
              · exact Or.inl old
              · exact Or.inr later
        case isFalse =>
          simp [or_assoc]
  simpa [distinct] using along []

omit [Scalar α] in
theorem lookup_map_self (f : String → List String) (nodes : List String) (name : String)
    : (nodes.map fun node => (node, f node)).lookup name
      = if name ∈ nodes then some (f name) else none := by
  induction nodes with
  | nil => rfl
  | cons node rest ih =>
      by_cases same : name = node
      · subst same
        simp
      · have unequal : (name == node) = false := by simpa using same
        simp [List.lookup_cons, unequal, ih, same]

variable {s : Scenario α}

omit [Scalar α] in
theorem predecessors_eq (s : Scenario α) (name : String)
    : s.dependencies.predecessors name
      = if name ∈ s.dependencies.nodes then requiredNodes (Symbols.ofScenario s) s name
        else [] := by
  have before : s.dependencies.before = s.dependencies.nodes.map fun node =>
      (node, requiredNodes (Symbols.ofScenario s) s node) := rfl
  rw [predecessors, before, lookup_map_self]
  by_cases node : name ∈ s.dependencies.nodes
  · rw [if_pos node, if_pos node, Option.getD_some]
  · rw [if_neg node, if_neg node, Option.getD_none]

omit [Scalar α] in
/-- All that must come before a node is a node. -/
theorem mem_nodes_of_predecessor {name root : String}
    (required : root ∈ s.dependencies.predecessors name)
    : root ∈ s.dependencies.nodes := by
  rw [predecessors_eq] at required
  split at required
  case isFalse => cases required
  case isTrue =>
    simp only [requiredNodes, listedNodes] at required
    split at required
    case h_2 => cases required
    case h_1 =>
      rcases List.mem_append.mp (mem_distinct.mp required) with listed | read
      · exact List.contains_iff_mem.mp (List.mem_filter.mp listed).2
      · exact List.contains_iff_mem.mp (List.mem_filter.mp read).2

omit [Scalar α] in
/-- A variable or impact comes after each variable and impact that it or a replacement reads. -/
theorem mem_predecessors {name root : String} {owner q : Quantity α}
    (node : name ∈ s.dependencies.nodes) (nodeRoot : root ∈ s.dependencies.nodes)
    (owns : (Symbols.ofScenario s).quantity? name = some owner)
    (among : q ∈ owner :: overrides (Symbols.ofScenario s) s name)
    (varying : isVarying (Symbols.ofScenario s) root = true) (read : root ∈ q.timedRoots)
    : root ∈ s.dependencies.predecessors name := by
  rw [predecessors_eq, if_pos node]
  simp only [requiredNodes, owns]
  refine mem_distinct.mpr (List.mem_append_right _ (List.mem_filter.mpr ⟨?_, ?_⟩))
  · simp only [reads]
    refine mem_distinct.mpr (List.mem_filter.mpr ⟨?_, varying⟩)
    rcases List.mem_append.mp read with written | summed
    · refine List.mem_append_right _ (List.mem_flatMap.mpr ⟨q, among, ?_⟩)
      obtain ⟨e, member, below⟩ := List.mem_flatMap.mp written
      exact List.mem_flatMap.mpr ⟨e, member, below⟩
    · refine List.mem_append_left _ (List.mem_flatMap.mpr ⟨q, among, ?_⟩)
      cases q with
      | impact i =>
          simp only [Quantity.summedRoots] at summed
          split at summed
          · exact summed
          · cases summed
      | assumption _ | parameter _ | varying _ => cases summed
  · rw [List.contains_iff_mem]
    exact nodeRoot

end Dependencies

-----------------------------------------------------------------------------------------
-- Plans of a scenario
-----------------------------------------------------------------------------------------

omit [Scalar α] in
/-- Where names are different every declaration is the first of its name, by induction. -/
theorem Plan.firstOfName_of_distinct {done rest : List (Quantity α)}
    (distinct : ((done ++ rest).map Quantity.name).Nodup)
    : firstOfName done rest = done ++ rest := by
  induction rest generalizing done with
  | nil => simp [firstOfName]
  | cons q rest ih =>
      have fresh : ∀ other ∈ done, other.name ≠ q.name := by
        rw [List.map_append, List.nodup_append] at distinct
        exact fun other member => distinct.2.2 _ (List.mem_map_of_mem member) _ (by simp)
      have absent : done.any (·.name == q.name) = false := by
        simpa using fresh
      rw [firstOfName, absent, if_neg (by simp), ih (by simpa using distinct)]
      simp

namespace Scenario.Accepted

variable {s : Scenario α} {graph : CausalGraph} {order : List String} {times : List α}
  {seed : Int} {pins : Env α}

theorem owners_eq (accepted : s.Accepted graph) (order : List String) (times : List α)
    (seed : Int) (pins : Env α)
    : (Plan.ofScenario s order times seed pins).owners = s.quantities := by
  have distinct : (([] ++ s.quantities).map Quantity.name).Nodup :=
    accepted.quantities_distinct
  exact Plan.firstOfName_of_distinct distinct

theorem quantity?_eq (accepted : s.Accepted graph) {q : Quantity α} (member : q ∈ s.quantities)
    : (Symbols.ofScenario s).quantity? q.name = some q := by
  obtain ⟨index, -, found⟩ := accepted.find?_quantity member
  simp [Symbols.quantity?, found, Declaration.quantity?]

omit [Scalar α] in
theorem mem_nodes {root : String} {symbol : Symbol α} {q : Quantity α}
    (found : (Symbols.ofScenario s).find? root = some symbol)
    (is : symbol.declaration = .quantity q)
    : root ∈ s.dependencies.nodes := by
  have named : symbol.name = root := by simpa using List.find?_some found
  refine List.mem_map.mpr ⟨symbol, List.mem_filter.mpr ⟨List.mem_of_find?_eq_some found, ?_⟩,
    named⟩
  simp [is, Declaration.referent?]

theorem nodes_distinct (accepted : s.Accepted graph) : s.dependencies.nodes.Nodup :=
  accepted.distinct.sublist (List.filter_sublist.map _)

/-- The order of the causal graph respects all dependencies. -/
theorem isOrder (accepted : s.Accepted graph) : s.dependencies.IsOrder graph.order := by
  have ordered := accepted.graph
  simp only [CausalGraph.ofScenario] at ordered
  cases found : (Dependencies.ofSymbols (Symbols.ofScenario s) s).order with
  | error cycle => simp [found, Except.map] at ordered
  | ok order =>
      simp only [found, Except.map, Except.ok.injEq] at ordered
      subst ordered
      exact Dependencies.order_isOrder accepted.nodes_distinct
        (fun _ _ => Dependencies.mem_nodes_of_predecessor) found

/-- A declaration of a branch that takes the place of an owner is not ignored. -/
theorem isOverride_of_replaces (accepted : s.Accepted graph) {q : Quantity α}
    (replaces : (Plan.ofScenario s order times seed pins).Replaces q)
    : ∃ owner ∈ s.quantities, owner.name = q.name ∧ owner.kind = q.kind
        ∧ (Symbols.ofScenario s).isOverride q = true := by
  obtain ⟨owner, owns, sameName, sameKind⟩ := replaces
  rw [accepted.owners_eq] at owns
  refine ⟨owner, owns, sameName, sameKind, ?_⟩
  simp [Symbols.isOverride, ← sameName, accepted.quantity?_eq owns, sameKind]

theorem clean_of_mem (accepted : s.Accepted graph) {d : Declaration α} {index : Nat}
    (placed : s.declarations[index]? = some d)
    : Clean (Check.checkDeclaration (Symbols.ofScenario s) index d) :=
  accepted.declarations d index (List.mem_zipIdx_iff_getElem?.mpr placed)

theorem clean_of_branch (accepted : s.Accepted graph) {b : Branch α} (branch : b ∈ s.branches)
    : Clean (Check.checkBranch (Symbols.ofScenario s) b) := by
  obtain ⟨d, declared, is⟩ := List.mem_filterMap.mp branch
  obtain ⟨index, placed⟩ := List.mem_iff_getElem?.mp declared
  cases d with
  | branch other =>
      cases is
      exact accepted.clean_of_mem placed
  | quantity _ | simulate _ | watch _ | calibrate _ | imported _ => cases is

/-- Whatever may be in force stands in the place of an owner and reads what may be read there.
-/
theorem reads_of_held (accepted : s.Accepted graph) {current : InForce α}
    (held : (Plan.ofScenario s order times seed pins).MayHold current)
    : ∃ owner ∈ s.quantities, ∃ index, owner.name = current.declaration.name
        ∧ owner.kind = current.declaration.kind
        ∧ s.declarations[index]? = some (.quantity owner)
        ∧ Check.QuantityReads (Symbols.ofScenario s) index current.declaration
        ∧ (current.declaration.isConstant = false
            → current.declaration ∈ owner :: Dependencies.overrides (Symbols.ofScenario s) s
                current.declaration.name) := by
  cases held with
  | @owner q member =>
      rw [accepted.owners_eq] at member
      obtain ⟨index, placed, -⟩ := accepted.find?_quantity member
      refine ⟨q, member, index, rfl, rfl, placed, ?_, fun _ => List.mem_cons_self⟩
      exact Check.quantityReads_of_checkQuantity false (accepted.clean_of_mem placed)
  | @override b q branch member replaces =>
      obtain ⟨owner, owns, sameName, sameKind, overrides⟩ :=
        accepted.isOverride_of_replaces replaces
      obtain ⟨index, placed, found⟩ := accepted.find?_quantity owns
      have nested := (Clean.append_iff.mp (accepted.clean_of_branch branch)).2
      obtain ⟨symbol, found', reads⟩ := Check.quantityReads_of_checkOverride overrides
        (Clean.flatMap_iff.mp nested q member)
      rw [← sameName, found] at found'
      cases found'
      refine ⟨owner, owns, index, sameName, sameKind, placed, reads, fun varying => ?_⟩
      refine List.mem_cons_of_mem _ (List.mem_flatMap.mpr ⟨b, branch, ?_⟩)
      exact List.mem_filter.mpr ⟨member, by simp [varying, overrides]⟩

/-- Constants read constants before them: their indices are smaller. -/
theorem constants_before (accepted : s.Accepted graph) {earlier later : List (Quantity α)}
    {q : Quantity α} (split : s.quantities.filter (·.isConstant) = earlier ++ q :: later)
    {root : String} (read : root ∈ q.constantRoots)
    : root ∈ earlier.map (·.name) := by
  have among : q ∈ s.quantities.filter (·.isConstant) := by simp [split]
  obtain ⟨index, placed, -⟩ := accepted.find?_quantity (List.mem_filter.mp among).1
  have reads := Check.quantityReads_of_checkQuantity false
    (accepted.clean_of_mem placed)
  obtain ⟨other, -, rfl, place, placedOther, constant, before⟩ :=
    accepted.quantity_of_admits (reads.constantRoots read)
  let constantsOf (ds : List (Declaration α)) : List (Quantity α) :=
    (ds.filterMap (·.quantity?)).filter (·.isConstant)
  -- the place of the constant divides the declarations, and with them the constants
  obtain ⟨bound, written⟩ := List.getElem?_eq_some_iff.mp placed
  have declarations : s.declarations
      = s.declarations.take index ++ .quantity q :: s.declarations.drop (index + 1) := by
    rw [← written, ← List.drop_eq_getElem_cons bound, List.take_append_drop]
  have whole : s.quantities.filter (·.isConstant)
      = constantsOf (s.declarations.take index)
        ++ q :: constantsOf (s.declarations.drop (index + 1)) := by
    have fixed : q.isConstant = true := (List.mem_filter.mp among).2
    rw [Scenario.quantities]
    conv_lhs => rw [declarations]
    simp [constantsOf, Declaration.quantity?, fixed]
  have distinct : (s.quantities.filter (·.isConstant)).Nodup :=
    (accepted.quantities_distinct.of_map).filter _
  rw [split] at distinct whole
  have alone := (List.nodup_cons.mp (List.nodup_middle.mp distinct)).1
  rw [List.mem_append, not_or] at alone
  obtain ⟨rfl, -, -⟩ := (List.append_cons_inj_of_notMem alone.1 alone.2).mp whole
  refine List.mem_map_of_mem (List.mem_filter.mpr
    ⟨List.mem_filterMap.mpr ⟨.quantity other, ?_, rfl⟩, constant⟩)
  apply List.mem_of_getElem? (i := place)
  rw [List.getElem?_take_of_lt before]
  exact placedOther

theorem mem_order_iff (accepted : s.Accepted graph) (ordered : s.dependencies.IsOrder order)
    {name : String}
    : name ∈ (Plan.ofScenario s order times seed pins).order
      ↔ ∃ q ∈ s.quantities, q.name = name ∧ q.isConstant = false := by
  have owners := accepted.owners_eq order times seed pins
  have varying : name ∈ (Plan.ofScenario s order times seed pins).order
      ↔ name ∈ order ∧ ∃ q ∈ (Plan.ofScenario s order times seed pins).owners,
          q.name = name ∧ q.isConstant = false := by
    simp [Plan.ofScenario]
  rw [varying, owners, and_iff_right_iff_imp]
  rintro ⟨q, member, rfl, -⟩
  obtain ⟨index, -, found⟩ := accepted.find?_quantity member
  exact ordered.nodes.mem_iff.mpr (mem_nodes found rfl)

/-- What is read while a point in time is computed is constant or computed before. -/
theorem timed_before (accepted : s.Accepted graph) (ordered : s.dependencies.IsOrder order)
    {earlier later : List String} {name : String}
    (split : (Plan.ofScenario s order times seed pins).order = earlier ++ name :: later)
    {current : InForce α}
    (held : (Plan.ofScenario s order times seed pins).MayHold current)
    (named : current.declaration.name = name) {root : String}
    (read : root ∈ current.declaration.timedRoots)
    : root ∈ (Plan.ofScenario s order times seed pins).constantNames ∨ root ∈ earlier := by
  obtain ⟨owner, owns, index, sameName, sameKind, -, reads, among⟩ := accepted.reads_of_held held
  obtain ⟨q, member, rfl, -⟩ := accepted.quantity_of_admits (reads.timedRoots read)
  cases kind : q.isConstant with
  | true =>
      refine Or.inl (Plan.mem_constantNames.mpr ⟨q, ?_, rfl, kind⟩)
      rwa [accepted.owners_eq]
  | false =>
      obtain ⟨_, -, found⟩ := accepted.find?_quantity member
      obtain ⟨_, -, foundOwner⟩ := accepted.find?_quantity owns
      have computed : name ∈ (Plan.ofScenario s order times seed pins).order := by simp [split]
      obtain ⟨same, memberSame, sameOwner, varying⟩ :=
        (accepted.mem_order_iff ordered).mp computed
      have unique : same = owner :=
        List.inj_on_of_nodup_map accepted.quantities_distinct memberSame owns
          (sameOwner.trans (named.symm.trans sameName.symm))
      have varies : current.declaration.isConstant = false := by
        simpa only [Quantity.isConstant, ← sameKind, ← unique] using varying
      have required : q.name ∈ s.dependencies.predecessors name := by
        rw [← named, ← sameName]
        refine Dependencies.mem_predecessors (mem_nodes foundOwner rfl) (mem_nodes found rfl)
          (accepted.quantity?_eq owns) (sameName ▸ among varies) ?_ read
        simp [Dependencies.isVarying, accepted.quantity?_eq member, kind]
      -- the order of the plan leaves out constants, and what is read is none
      have stays : q.name ∈ (Plan.ofScenario s order times seed pins).order :=
        (accepted.mem_order_iff ordered).mpr ⟨q, member, rfl, kind⟩
      obtain ⟨front, rest, whole, rfl, restEq⟩ := List.filter_eq_append_iff.mp split
      obtain ⟨skipped, after, restWhole, left, -, -⟩ := List.filter_eq_cons_iff.mp restEq
      have before : q.name ∈ front ++ skipped := by
        refine ordered.before (front ++ skipped) name after ?_ q.name required
        rw [whole, restWhole, List.append_assoc]
      rcases List.mem_append.mp before with inFront | inSkipped
      · exact Or.inr (List.mem_filter.mpr ⟨inFront, (List.mem_filter.mp stays).2⟩)
      · exact absurd (List.mem_filter.mp stays).2 (left q.name inSkipped)

/-- Named values in any order of computation that respects the dependencies make a sound plan:
nothing reads what is not there by then.
-/
theorem sound (accepted : s.Accepted graph) (ordered : s.dependencies.IsOrder order)
    (times : List α) (seed : Int) (pins : Env α)
    : (Plan.ofScenario s order times seed pins).Sound := by
  have owners := accepted.owners_eq order times seed pins
  refine ⟨?_, ?_, ?_, ?_, ?_, ?_, ?_, ?_, ?_, ?_⟩
  · rw [owners]
    exact accepted.quantities_distinct
  · exact (ordered.nodes.nodup_iff.mpr accepted.nodes_distinct).filter _
  · rw [owners]
    exact fun name => accepted.mem_order_iff ordered
  · intro current held
    obtain ⟨owner, -, index, -, -, -, reads, -⟩ := accepted.reads_of_held held
    exact reads.callsKnown
  · intro earlier q later split root read
    rw [Plan.constants, owners] at split
    exact accepted.constants_before split read
  · intro current held root read
    obtain ⟨owner, -, index, -, -, -, reads, -⟩ := accepted.reads_of_held held
    obtain ⟨q, member, named, place, -, constant, -⟩ :=
      accepted.quantity_of_admits (reads.constantRoots read)
    exact Plan.mem_constantNames.mpr ⟨q, by rwa [owners], named, constant⟩
  · intro current held root read
    obtain ⟨owner, -, index, -, -, -, reads, -⟩ := accepted.reads_of_held held
    obtain ⟨q, member, named, place, -, constant⟩ :=
      accepted.quantity_of_admits (reads.anchorRoots read)
    exact Plan.mem_constantNames.mpr ⟨q, by rwa [owners], named, constant⟩
  · exact fun earlier name later split current held named root read =>
      accepted.timed_before ordered split held named read
  · intro b branch
    have condition := (Clean.append_iff.mp (Clean.append_iff.mp
      (accepted.clean_of_branch branch)).1).1
    exact (Check.reads_of_checkExpression (by simp) condition).calls
  · intro b branch root read
    have condition := (Clean.append_iff.mp (Clean.append_iff.mp
      (accepted.clean_of_branch branch)).1).1
    obtain ⟨q, member, named, -⟩ := accepted.quantity_of_admits
      ((Check.reads_of_checkExpression (by simp) condition).names root read)
    exact ⟨q, by rwa [owners], named⟩

end Scenario.Accepted

end Prognosis
