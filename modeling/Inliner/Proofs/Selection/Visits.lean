import Inliner.Selection.Placement
import Mathlib.Data.List.Nodup
import Mathlib.Data.List.Perm.Subperm
import Mathlib.Logic.Relation

/-!
# Visits

What the placement of items does, visit by visit: which items are entered, and which items are
under way at that time.  An item is placed behind everything it needs but what is under way when
it is entered; whatever is under way then is placed behind it.  So the order of the placement can
be read off from the items under way.
-/

namespace Inliner

/-! ## The order of two items -/

/-- One item stands before another one. -/
def Precedes (left right : Nat) (items : List Nat) : Prop :=
  ∃ before after, items = before ++ after ∧ left ∈ before ∧ right ∈ after

namespace Precedes

variable {left right : Nat} {items : List Nat}

theorem left_mem (order : Precedes left right items) : left ∈ items := by
  obtain ⟨before, after, rfl, leftMember, _⟩ := order
  exact List.mem_append_left after leftMember

theorem right_mem (order : Precedes left right items) : right ∈ items := by
  obtain ⟨before, after, rfl, _, rightMember⟩ := order
  exact List.mem_append_right before rightMember

theorem of_mem_append
    {first second : List Nat} (leftMember : left ∈ first) (rightMember : right ∈ second) :
    Precedes left right (first ++ second) :=
  ⟨first, second, rfl, leftMember, rightMember⟩

theorem of_isPrefix
    {longer : List Nat} (order : Precedes left right items) (extended : items <+: longer) :
    Precedes left right longer := by
  obtain ⟨before, after, rfl, leftMember, rightMember⟩ := order
  obtain ⟨rest, rfl⟩ := extended
  exact ⟨before, after ++ rest, by simp, leftMember, List.mem_append_left rest rightMember⟩

theorem of_mem_start
    {start : List Nat} (isPrefix : start <+: items) (leftMember : left ∈ start)
    (rightMember : right ∈ items) (behind : right ∉ start) :
    Precedes left right items := by
  obtain ⟨rest, rfl⟩ := isPrefix
  exact of_mem_append leftMember ((List.mem_append.mp rightMember).resolve_left behind)

theorem asymm (order : Precedes left right items) (nodup : items.Nodup) :
    ¬ Precedes right left items := by
  rintro ⟨before, after, same, rightBefore, leftAfter⟩
  obtain ⟨initial, final, rfl, leftInitial, rightFinal⟩ := order
  have disjoint := (List.nodup_append.mp nodup).2.2
  rcases List.append_eq_append_iff.mp same with
    ⟨middle, rfl, rfl⟩ | ⟨middle, rfl, rfl⟩
  · exact disjoint left leftInitial left (List.mem_append_right middle leftAfter) rfl
  · exact disjoint right (List.mem_append_left middle rightBefore) right rightFinal rfl

/-- What stands before the last item of a list without repetitions is the rest of it. -/
theorem mem_before
    {before after : List Nat} (order : Precedes left right (before ++ right :: after))
    (nodup : (before ++ right :: after).Nodup) :
    left ∈ before := by
  by_contra notBefore
  have inRest : left ∈ right :: after := by
    simpa [notBefore] using order.left_mem
  rcases List.mem_cons.mp inRest with rfl | inAfter
  · exact order.asymm nodup order
  · refine order.asymm nodup ?_
    rw [List.append_cons]
    exact of_mem_append (by simp) inAfter

end Precedes

/-! ## The course of the visits -/

namespace Placement

/-- The items entered while some items are visited, each with the items under way then. -/
def follow
    (visit : Placement → Nat → Placement) (entries : Placement → Nat → List (Nat × List Nat)) :
    Placement → List Nat → List (Nat × List Nat)
  | _, [] => []
  | placement, item :: items =>
      entries placement item ++ follow visit entries (visit placement item) items

/-- The items entered while one item is visited, each with the items under way then. -/
def entries (needs : Nat → List Nat) : Nat → Placement → Nat → List (Nat × List Nat)
  | 0, _, _ => []
  | depth + 1, placement, item =>
      if item ∈ placement.emitted ∨ item ∈ placement.visiting then
        []
      else
        (item, placement.visiting) ::
          follow (visit needs depth) (entries needs depth)
            { placement with visiting := item :: placement.visiting } (needs item)

/-- The items under way when an item is entered, if items are visited one after the other. -/
def underWay (needs : Nat → List Nat) (depth : Nat) (items : List Nat) (item : Nat) : List Nat :=
  ((follow (visit needs depth) (entries needs depth) empty items).lookup item).getD []

/-- Visits to some items, told without a bound on their depth: the placement before them, the
items, the items entered with those under way, and the placement after them. -/
inductive Visits (needs : Nat → List Nat) :
    Placement → List Nat → List (Nat × List Nat) → Placement → Prop
  | done (placement : Placement) :
      Visits needs placement [] [] placement
  | skip {placement last : Placement} {item : Nat} {items : List Nat}
      {log : List (Nat × List Nat)} :
      item ∈ placement.emitted ∨ item ∈ placement.visiting →
      Visits needs placement items log last →
      Visits needs placement (item :: items) log last
  | enter {placement served last : Placement} {item : Nat} {items : List Nat}
      {inner outer : List (Nat × List Nat)} :
      item ∉ placement.emitted →
      item ∉ placement.visiting →
      Visits needs ⟨item :: placement.visiting, placement.emitted⟩ (needs item) inner served →
      Visits needs ⟨placement.visiting, served.emitted ++ [item]⟩ items outer last →
      Visits needs placement (item :: items)
        ((item, placement.visiting) :: inner ++ outer) last

/-- What has been entered: the items placed and those under way. -/
def Entered (placement : Placement) (item : Nat) : Prop :=
  item ∈ placement.emitted ∨ item ∈ placement.visiting

namespace Visits

variable {needs : Nat → List Nat} {placement last : Placement} {items : List Nat}
  {log : List (Nat × List Nat)}

/-- Visits leave what is under way as they found it. -/
theorem visiting_eq (visits : Visits needs placement items log last) :
    last.visiting = placement.visiting := by
  induction visits with
  | done => rfl
  | skip _ _ inductionHypothesis => exact inductionHypothesis
  | enter _ _ _ _ _ outerHypothesis => exact outerHypothesis

/-- Visits place more items behind those placed before. -/
theorem isPrefix (visits : Visits needs placement items log last) :
    placement.emitted <+: last.emitted := by
  induction visits with
  | done => exact List.prefix_rfl
  | skip _ _ inductionHypothesis => exact inductionHypothesis
  | enter _ _ _ _ innerHypothesis outerHypothesis =>
      exact innerHypothesis.trans ((List.prefix_append _ _).trans outerHypothesis)

theorem emitted_subset
    (visits : Visits needs placement items log last) {item : Nat}
    (member : item ∈ placement.emitted) :
    item ∈ last.emitted :=
  visits.isPrefix.subset member

/-- After visits every item visited has been entered. -/
theorem entered_of_mem
    (visits : Visits needs placement items log last) {item : Nat} (member : item ∈ items) :
    last.Entered item := by
  induction visits with
  | done => simp at member
  | skip met visits inductionHypothesis =>
      rcases List.mem_cons.mp member with rfl | later
      · rcases met with emitted | visiting
        · exact Or.inl (visits.emitted_subset emitted)
        · exact Or.inr (visits.visiting_eq ▸ visiting)
      · exact inductionHypothesis later
  | enter _ _ _ outerVisits _ outerHypothesis =>
      rcases List.mem_cons.mp member with rfl | later
      · exact Or.inl (outerVisits.emitted_subset (by simp))
      · exact outerHypothesis later

/-- Nothing is placed twice, and nothing under way is placed. -/
theorem nodup_and_disjoint
    (visits : Visits needs placement items log last)
    (nodup : placement.emitted.Nodup) (disjoint : placement.emitted.Disjoint placement.visiting) :
    last.emitted.Nodup ∧ last.emitted.Disjoint last.visiting := by
  induction visits with
  | done => exact ⟨nodup, disjoint⟩
  | skip _ _ inductionHypothesis => exact inductionHypothesis nodup disjoint
  | @enter placement served last item items inner outer fresh idle innerVisits _
      innerHypothesis outerHypothesis =>
      have innerDisjoint : placement.emitted.Disjoint (item :: placement.visiting) := by
        rw [List.disjoint_cons_right]
        exact ⟨fresh, disjoint⟩
      obtain ⟨servedNodup, servedDisjoint⟩ := innerHypothesis nodup innerDisjoint
      rw [innerVisits.visiting_eq, List.disjoint_cons_right] at servedDisjoint
      apply outerHypothesis
      · rw [List.nodup_append]
        refine ⟨servedNodup, List.nodup_singleton item, ?_⟩
        rintro other member _ lastMember rfl
        rw [List.mem_singleton.mp lastMember] at member
        exact servedDisjoint.1 member
      · rw [List.disjoint_append_left, List.singleton_disjoint]
        exact ⟨servedDisjoint.2, idle⟩

/-- What has been placed by the end was placed before or entered on the way, and the other way
round. -/
theorem mem_emitted_iff
    (visits : Visits needs placement items log last) {item : Nat} :
    item ∈ last.emitted ↔ item ∈ placement.emitted ∨ ∃ stack, (item, stack) ∈ log := by
  induction visits with
  | done => simp
  | skip _ _ inductionHypothesis => exact inductionHypothesis
  | enter _ _ _ _ innerHypothesis outerHypothesis =>
      rw [outerHypothesis, List.mem_append, innerHypothesis]
      simp only [List.mem_append, List.mem_cons, Prod.mk.injEq, List.not_mem_nil,
        or_false, List.cons_append]
      constructor
      · rintro (((earlier | ⟨stack, inside⟩) | rfl) | ⟨stack, outside⟩)
        · exact Or.inl earlier
        · exact Or.inr ⟨stack, Or.inr (Or.inl inside)⟩
        · exact Or.inr ⟨_, Or.inl ⟨rfl, rfl⟩⟩
        · exact Or.inr ⟨stack, Or.inr (Or.inr outside)⟩
      · rintro (earlier | ⟨stack, ⟨rfl, _⟩ | inside | outside⟩)
        · exact Or.inl (Or.inl (Or.inl earlier))
        · exact Or.inl (Or.inr rfl)
        · exact Or.inl (Or.inl (Or.inr ⟨stack, inside⟩))
        · exact Or.inr ⟨stack, outside⟩

/-- Only items of a pool are placed, if the pool holds what is visited and what its items
need. -/
theorem mem_pool_of_mem_log
    {pool : List Nat} (visits : Visits needs placement items log last)
    (closed : ∀ item ∈ pool, ∀ need ∈ needs item, need ∈ pool)
    (known : ∀ item ∈ items, item ∈ pool) {item : Nat} {stack : List Nat}
    (member : (item, stack) ∈ log) :
    item ∈ pool := by
  induction visits with
  | done => simp at member
  | skip _ _ inductionHypothesis =>
      exact inductionHypothesis (List.forall_mem_cons.mp known).2 member
  | enter _ _ _ _ innerHypothesis outerHypothesis =>
      obtain ⟨headKnown, tailKnown⟩ := List.forall_mem_cons.mp known
      rw [List.cons_append, List.mem_cons, List.mem_append] at member
      rcases member with same | inside | outside
      · rw [(Prod.mk.inj same).1]
        exact headKnown
      · exact innerHypothesis (closed _ headKnown) inside
      · exact outerHypothesis tailKnown outside

/-! ## The order of the placement -/

/-- An item is placed behind what it needs, unless that is under way when the item is entered. -/
theorem precedes_of_needed
    (visits : Visits needs placement items log last) {item need : Nat} {stack : List Nat}
    (member : (item, stack) ∈ log) (needed : need ∈ needs item)
    (idleNeed : need ∉ stack) (distinct : need ≠ item) :
    Precedes need item last.emitted := by
  induction visits with
  | done => simp at member
  | skip _ _ inductionHypothesis => exact inductionHypothesis member
  | @enter placement served _ head _ inner outer fresh idle innerVisits outerVisits
      innerHypothesis outerHypothesis =>
      rw [List.cons_append, List.mem_cons, List.mem_append] at member
      rcases member with same | inside | outside
      · obtain ⟨rfl, rfl⟩ := Prod.mk.inj same
        have placed : need ∈ served.emitted := by
          rcases innerVisits.entered_of_mem needed with emitted | visiting
          · exact emitted
          · rw [innerVisits.visiting_eq] at visiting
            simp [distinct, idleNeed] at visiting
        exact (Precedes.of_mem_append placed (List.mem_singleton_self item)).of_isPrefix
          outerVisits.isPrefix
      · exact (innerHypothesis inside).of_isPrefix
          ((List.prefix_append _ _).trans outerVisits.isPrefix)
      · exact outerHypothesis outside

/-- An item is placed before what is under way when it is entered. -/
theorem precedes_of_underWay
    (visits : Visits needs placement items log last) {item waiting : Nat} {stack : List Nat}
    (member : (item, stack) ∈ log) (under : waiting ∈ stack) :
    waiting ∈ placement.visiting ∨ Precedes item waiting last.emitted := by
  induction visits with
  | done => simp at member
  | skip _ _ inductionHypothesis => exact inductionHypothesis member
  | @enter placement served _ head _ inner outer fresh idle innerVisits outerVisits
      innerHypothesis outerHypothesis =>
      rw [List.cons_append, List.mem_cons, List.mem_append] at member
      rcases member with same | inside | outside
      · rw [(Prod.mk.inj same).2] at under
        exact Or.inl under
      · rcases innerHypothesis inside with visiting | order
        · rcases List.mem_cons.mp visiting with rfl | earlier
          · right
            have placed : item ∈ served.emitted :=
              innerVisits.mem_emitted_iff.mpr (Or.inr ⟨stack, inside⟩)
            exact (Precedes.of_mem_append placed (List.mem_singleton_self _)).of_isPrefix
              outerVisits.isPrefix
          · exact Or.inl earlier
        · right
          exact order.of_isPrefix ((List.prefix_append _ _).trans outerVisits.isPrefix)
      · exact outerHypothesis outside

/-- Whatever is under way when an item is entered needs it, directly or through other items. -/
theorem needs_of_underWay
    (visits : Visits needs placement items log last)
    (leads : ∀ waiting ∈ placement.visiting, ∀ item ∈ items,
      Relation.TransGen (fun item need => need ∈ needs item) waiting item)
    {item waiting : Nat} {stack : List Nat}
    (member : (item, stack) ∈ log) (under : waiting ∈ stack) :
    Relation.TransGen (fun item need => need ∈ needs item) waiting item := by
  induction visits with
  | done => simp at member
  | skip _ _ inductionHypothesis =>
      exact inductionHypothesis
        (fun waiting visiting => (List.forall_mem_cons.mp (leads waiting visiting)).2) member
  | @enter placement served _ head _ inner outer fresh idle innerVisits outerVisits
      innerHypothesis outerHypothesis =>
      rw [List.cons_append, List.mem_cons, List.mem_append] at member
      rcases member with same | inside | outside
      · obtain ⟨rfl, rfl⟩ := Prod.mk.inj same
        exact leads waiting under item List.mem_cons_self
      · apply innerHypothesis ?_ inside
        intro other visiting need needed
        rcases List.mem_cons.mp visiting with rfl | earlier
        · exact .single needed
        · exact .tail (leads other earlier head List.mem_cons_self) needed
      · exact outerHypothesis
          (fun waiting visiting => (List.forall_mem_cons.mp (leads waiting visiting)).2) outside

/-! ## Visits one after the other -/

/-- Visits to a list of items are visits to the first part of it and then to the rest. -/
theorem exists_of_append
    {first second : List Nat} (visits : Visits needs placement (first ++ second) log last) :
    ∃ middle initial final,
      Visits needs placement first initial middle ∧ Visits needs middle second final last := by
  generalize split : first ++ second = items at visits
  induction visits generalizing first with
  | done placement =>
      obtain ⟨rfl, rfl⟩ := List.append_eq_nil_iff.mp split
      exact ⟨placement, [], [], .done placement, .done placement⟩
  | @skip placement last item items log met visits inductionHypothesis =>
      cases first with
      | nil =>
          rw [List.nil_append] at split
          rw [split]
          exact ⟨placement, [], log, .done placement, .skip met visits⟩
      | cons head tail =>
          obtain ⟨rfl, rest⟩ := List.cons.inj split
          obtain ⟨middle, initial, final, before, after⟩ := inductionHypothesis rest
          exact ⟨middle, initial, final, .skip met before, after⟩
  | @enter placement served last item items inner outer fresh idle innerVisits outerVisits _
      outerHypothesis =>
      cases first with
      | nil =>
          rw [List.nil_append] at split
          rw [split]
          exact ⟨placement, [], _, .done placement, .enter fresh idle innerVisits outerVisits⟩
      | cons head tail =>
          obtain ⟨rfl, rest⟩ := List.cons.inj split
          obtain ⟨middle, initial, final, before, after⟩ := outerHypothesis rest
          exact ⟨middle, _, final, .enter fresh idle innerVisits before, after⟩

/-- Whatever is entered is visited itself, or something that is visited needs it, directly or
through other items. -/
theorem exists_root_of_mem_log
    (visits : Visits needs placement items log last) {item : Nat} {stack : List Nat}
    (member : (item, stack) ∈ log) :
    ∃ root ∈ items, Relation.ReflTransGen (fun item need => need ∈ needs item) root item := by
  induction visits with
  | done => simp at member
  | skip _ _ inductionHypothesis =>
      obtain ⟨root, visited, leads⟩ := inductionHypothesis member
      exact ⟨root, List.mem_cons_of_mem _ visited, leads⟩
  | @enter placement served last head items inner outer _ _ _ _ innerHypothesis outerHypothesis =>
      rw [List.cons_append, List.mem_cons, List.mem_append] at member
      rcases member with same | inside | outside
      · rw [(Prod.mk.inj same).1]
        exact ⟨head, List.mem_cons_self, .refl⟩
      · obtain ⟨root, needed, leads⟩ := innerHypothesis inside
        exact ⟨head, List.mem_cons_self, .head needed leads⟩
      · obtain ⟨root, visited, leads⟩ := outerHypothesis outside
        exact ⟨root, List.mem_cons_of_mem _ visited, leads⟩

/-- Visits to items that have been entered change nothing. -/
theorem eq_of_entered
    (visits : Visits needs placement items log last)
    (entered : ∀ item ∈ items, placement.Entered item) :
    last = placement := by
  induction visits with
  | done => rfl
  | skip _ _ inductionHypothesis =>
      exact inductionHypothesis (List.forall_mem_cons.mp entered).2
  | enter fresh idle _ _ _ _ =>
      rcases (List.forall_mem_cons.mp entered).1 with emitted | visiting
      · exact absurd emitted fresh
      · exact absurd visiting idle

/-- Items in ascending order are placed in this order if each of them needs only smaller ones among
them and those placed before. -/
theorem emitted_of_ascending
    (visits : Visits needs placement items log last) (nothing : placement.visiting = [])
    (ascending : (placement.emitted ++ items).Pairwise (· < ·))
    (smaller : ∀ item ∈ items, ∀ need ∈ needs item,
      need < item ∧ need ∈ placement.emitted ++ items) :
    last.emitted = placement.emitted ++ items := by
  induction visits with
  | done => simp
  | @skip placement last item items log met _ _ =>
      rw [nothing] at met
      have placed : item ∈ placement.emitted := by simpa using met
      have order := (List.pairwise_append.mp ascending).2.2 item placed item List.mem_cons_self
      exact absurd order (Nat.lt_irrefl item)
  | @enter placement served last item items inner outer fresh idle innerVisits _
      _ outerHypothesis =>
      obtain ⟨itemSmaller, restSmaller⟩ := List.forall_mem_cons.mp smaller
      have itemFirst : ∀ other ∈ items, item < other :=
        (List.pairwise_cons.mp (List.pairwise_append.mp ascending).2.1).1
      -- Whatever the item needs is smaller, so it stands before the item and has been placed.
      have placed : ∀ need ∈ needs item, need ∈ placement.emitted := by
        intro need needed
        obtain ⟨below, known⟩ := itemSmaller need needed
        rcases List.mem_append.mp known with earlier | ahead
        · exact earlier
        · rcases List.mem_cons.mp ahead with rfl | later
          · exact absurd below (Nat.lt_irrefl need)
          · exact absurd below (Nat.lt_asymm (itemFirst need later))
      have unchanged := innerVisits.eq_of_entered fun need needed => Or.inl (placed need needed)
      subst unchanged
      rw [List.append_cons] at ascending restSmaller ⊢
      exact outerHypothesis nothing ascending restSmaller

/-! ## Items in a row -/

section Row

/-- Items of some kind form a row: each of them needs the one before it first. -/
def InRow (needs : Nat → List Nat) (kind : Nat → Prop) : Prop :=
  ∀ lower upper, kind lower → kind upper → lower < upper →
    ∃ previous, kind previous ∧ lower ≤ previous ∧ previous < upper ∧
      (needs upper).head? = some previous

/-- Whatever precedes an entered item of a row has been entered, or the row is followed down from
there right away. -/
def Descends (kind : Nat → Prop) (placement : Placement) (items : List Nat) : Prop :=
  ∀ lower upper, kind lower → kind upper → lower < upper → placement.Entered upper →
    placement.Entered lower ∨
      ∃ next, items.head? = some next ∧ kind next ∧ lower ≤ next ∧ next < upper ∧
        ¬ placement.Entered next

theorem descends_of_entered
    {kind : Nat → Prop}
    (closed : ∀ lower upper, kind lower → kind upper → lower < upper →
      placement.Entered upper → placement.Entered lower) :
    Descends kind placement items := by
  intro lower upper lowerKind upperKind below entered
  exact Or.inl (closed lower upper lowerKind upperKind below entered)

/-- Entering the next item keeps up the descent. -/
theorem descends_enter
    {kind : Nat → Prop} {item : Nat} (row : InRow needs kind)
    (descends : Descends kind placement (item :: items)) :
    Descends kind ⟨item :: placement.visiting, placement.emitted⟩ (needs item) := by
  have entered_iff (other : Nat) :
      Entered ⟨item :: placement.visiting, placement.emitted⟩ other ↔
        other = item ∨ placement.Entered other := by
    simp only [Entered, List.mem_cons]
    tauto
  -- below the item that is entered the row has not been entered at all
  have continued :
      ∀ lower, kind lower → kind item → lower < item → ¬ placement.Entered lower →
        ∃ next, (needs item).head? = some next ∧ kind next ∧ lower ≤ next ∧ next < item ∧
          ¬ placement.Entered next := by
    intro lower lowerKind itemKind below notEntered
    obtain ⟨previous, previousKind, atLeast, previousBelow, first⟩ :=
      row lower item lowerKind itemKind below
    refine ⟨previous, first, previousKind, atLeast, previousBelow, ?_⟩
    intro previousEntered
    rcases Nat.lt_or_eq_of_le atLeast with strictly | rfl
    · rcases descends lower previous lowerKind previousKind strictly previousEntered with
        lowerEntered | ⟨next, isHead, _, _, nextBelow, _⟩
      · exact notEntered lowerEntered
      · rw [List.head?_cons, Option.some.injEq] at isHead
        omega
    · exact notEntered previousEntered
  intro lower upper lowerKind upperKind below upperEntered
  rw [entered_iff] at upperEntered ⊢
  by_cases lowerEntered : lower = item ∨ placement.Entered lower
  · exact Or.inl lowerEntered
  · right
    obtain ⟨notItem, notEntered⟩ := not_or.mp lowerEntered
    have itemBound : kind item ∧ lower < item ∧ item ≤ upper := by
      rcases upperEntered with rfl | entered
      · exact ⟨upperKind, below, Nat.le_refl upper⟩
      · rcases descends lower upper lowerKind upperKind below entered with
          known | ⟨next, isHead, nextKind, atLeast, nextBelow, _⟩
        · exact absurd known notEntered
        · rw [List.head?_cons, Option.some.injEq] at isHead
          subst isHead
          exact ⟨nextKind, by omega, by omega⟩
    obtain ⟨itemKind, belowItem, itemLe⟩ := itemBound
    obtain ⟨next, isHead, nextKind, atLeast, nextBelow, fresh⟩ :=
      continued lower lowerKind itemKind belowItem notEntered
    refine ⟨next, isHead, nextKind, atLeast, by omega, ?_⟩
    rw [entered_iff]
    rintro (rfl | entered)
    · exact absurd nextBelow (Nat.lt_irrefl next)
    · exact fresh entered

/-- Items in a row are placed in their order, unless the later one is entered while the earlier
one is under way. -/
theorem precedes_of_inRow
    {kind : Nat → Prop} (row : InRow needs kind)
    (visits : Visits needs placement items log last)
    (descends : Descends kind placement items) :
    (∀ lower upper, kind lower → kind upper → lower < upper →
      last.Entered upper → last.Entered lower) ∧
    ∀ lower upper stack, (upper, stack) ∈ log → kind lower → kind upper → lower < upper →
      lower ∉ stack → Precedes lower upper last.emitted := by
  induction visits with
  | done =>
      refine ⟨?_, by simp⟩
      intro lower upper lowerKind upperKind below entered
      simpa using descends lower upper lowerKind upperKind below entered
  | skip met _ inductionHypothesis =>
      apply inductionHypothesis
      apply descends_of_entered
      intro lower upper lowerKind upperKind below entered
      rcases descends lower upper lowerKind upperKind below entered with
        known | ⟨next, isHead, _, _, _, fresh⟩
      · exact known
      · rw [List.head?_cons, Option.some.injEq] at isHead
        subst isHead
        exact absurd met fresh
  | @enter placement served last item items inner outer fresh idle innerVisits outerVisits
      innerHypothesis outerHypothesis =>
      obtain ⟨servedClosed, innerOrder⟩ := innerHypothesis (descends_enter row descends)
      have sameEntered (other : Nat) :
          Entered ⟨placement.visiting, served.emitted ++ [item]⟩ other ↔
            served.Entered other := by
        simp only [Entered, innerVisits.visiting_eq, List.mem_append, List.mem_cons,
          List.not_mem_nil, or_false]
        tauto
      have afterwards : Descends kind ⟨placement.visiting, served.emitted ++ [item]⟩ items := by
        apply descends_of_entered
        intro lower upper lowerKind upperKind below
        rw [sameEntered, sameEntered]
        exact servedClosed lower upper lowerKind upperKind below
      obtain ⟨lastClosed, outerOrder⟩ := outerHypothesis afterwards
      refine ⟨lastClosed, ?_⟩
      intro lower upper stack member lowerKind upperKind below idleLower
      rw [List.cons_append, List.mem_cons, List.mem_append] at member
      rcases member with same | inside | outside
      · obtain ⟨rfl, rfl⟩ := Prod.mk.inj same
        have upperEntered : served.Entered upper :=
          Or.inr (innerVisits.visiting_eq ▸ List.mem_cons_self)
        have placed : lower ∈ served.emitted := by
          rcases servedClosed lower upper lowerKind upperKind below upperEntered with
            emitted | visiting
          · exact emitted
          · rw [innerVisits.visiting_eq] at visiting
            simp [idleLower, Nat.ne_of_lt below] at visiting
        exact (Precedes.of_mem_append placed (List.mem_singleton_self upper)).of_isPrefix
          outerVisits.isPrefix
      · exact (innerOrder lower upper stack inside lowerKind upperKind below idleLower).of_isPrefix
          ((List.prefix_append _ _).trans outerVisits.isPrefix)
      · exact outerOrder lower upper stack outside lowerKind upperKind below idleLower

end Row

end Visits

/-! ## Visits of a bounded depth -/

section Bounded

variable {needs : Nat → List Nat} {pool : List Nat}

/-- A depth that exceeds the number of items that can come up does not cut a visit short. -/
theorem visits_foldl
    (closed : ∀ item ∈ pool, ∀ need ∈ needs item, need ∈ pool) :
    ∀ (depth : Nat) (items : List Nat) (placement : Placement),
      (∀ item ∈ items, item ∈ pool) →
      placement.visiting.Nodup →
      placement.visiting ⊆ pool →
      pool.length < depth + placement.visiting.length →
        Visits needs placement items
          (follow (visit needs depth) (entries needs depth) placement items)
          (items.foldl (visit needs depth) placement)
  | _, [], placement, _, _, _, _ => .done placement
  | 0, _ :: _, placement, _, nodup, inside, bound => by
      have atMost := (List.subperm_of_subset nodup inside).length_le
      omega
  | depth + 1, item :: items, placement, known, nodup, inside, bound => by
      have itemKnown : item ∈ pool := known item List.mem_cons_self
      have itemsKnown : ∀ other ∈ items, other ∈ pool := fun other member =>
        known other (List.mem_cons_of_mem item member)
      rw [List.foldl_cons, follow]
      by_cases met : item ∈ placement.emitted ∨ item ∈ placement.visiting
      · have unchanged : visit needs (depth + 1) placement item = placement := by
          rw [visit, if_pos met]
        rw [entries, if_pos met, unchanged]
        exact .skip met
          (visits_foldl closed (depth + 1) items placement itemsKnown nodup inside bound)
      · obtain ⟨fresh, idle⟩ := not_or.mp met
        have inner :=
          visits_foldl closed depth (needs item) ⟨item :: placement.visiting, placement.emitted⟩
            (closed item itemKnown) (List.nodup_cons.mpr ⟨idle, nodup⟩)
            (List.cons_subset.mpr ⟨itemKnown, inside⟩)
            (by simp only [List.length_cons]; omega)
        have left :
            visit needs (depth + 1) placement item =
              ⟨placement.visiting,
                ((needs item).foldl (visit needs depth)
                  ⟨item :: placement.visiting, placement.emitted⟩).emitted ++ [item]⟩ := by
          rw [visit, if_neg met]
          dsimp only
          rw [inner.visiting_eq, List.erase_cons_head]
        rw [entries, if_neg met, left]
        exact .enter fresh idle inner
          (visits_foldl closed (depth + 1) items _ itemsKnown nodup inside bound)
  termination_by depth items => (depth, items.length)

theorem visits_visitAll
    {depth : Nat} {items : List Nat}
    (closed : ∀ item ∈ pool, ∀ need ∈ needs item, need ∈ pool)
    (known : ∀ item ∈ items, item ∈ pool) (bound : pool.length < depth) :
    Visits needs empty items
      (follow (visit needs depth) (entries needs depth) empty items)
      (visitAll needs depth items) :=
  visits_foldl closed depth items empty known List.nodup_nil
    (List.nil_subset pool) (by simpa [empty] using bound)

/-- The items under way are those noted when the item is entered. -/
theorem Visits.mem_log_underWay
    {depth : Nat} {items : List Nat} {item : Nat}
    (visits : Visits needs empty items
      (follow (visit needs depth) (entries needs depth) empty items)
      (visitAll needs depth items))
    (placed : item ∈ (visitAll needs depth items).emitted) :
    (item, underWay needs depth items item) ∈
      follow (visit needs depth) (entries needs depth) empty items := by
  rcases visits.mem_emitted_iff.mp placed with early | ⟨stack, member⟩
  · simp [empty] at early
  · have present := List.lookup_isSome_iff.mpr ⟨(item, stack), member, beq_self_eq_true item⟩
    obtain ⟨found, given⟩ := Option.isSome_iff_exists.mp present
    obtain ⟨before, after, split, _⟩ := List.lookup_eq_some_iff.mp given
    rw [underWay, given, Option.getD_some]
    rw [split]
    exact List.mem_append_right before List.mem_cons_self

end Bounded

end Placement

end Inliner
