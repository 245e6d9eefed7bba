import Mathlib.Algebra.BigOperators.Group.Finset.Basic
import Mathlib.Data.Finset.Card
import Mathlib.Logic.Relation
import Mathlib.Order.Bounds.Basic

/-!
# Worklists in any order

Items wait to be looked up.  Looking one up leads to numbers, and a number that comes up for the
first time is noted and opens further items.  Nothing is said about which item is taken next.  Still
every run ends if there are finitely many numbers, and all runs end with the same numbers: the least
set that holds those known at the start and is closed under looking up.
-/

namespace Inliner

/-- What a worklist does with its items and with the numbers that it finds. -/
structure LookupRules (Item : Type) where
  targets : Item → List Nat
  opens : Nat → List Item

/-- The items that wait, the numbers known so far, and those among them that were added since the
start, in the order in which they came up. -/
structure Worklist (Item : Type) where
  pending : Multiset Item
  known : Finset Nat
  added : List Nat

/-- The sets that hold some numbers and all that some items lead to, and with any further number all
that the items opened by it lead to. -/
def LookupRules.closedSets
    {Item : Type} (rules : LookupRules Item) (items : Multiset Item) (known : Finset Nat) :
    Set (Set Nat) :=
  {set | (∀ number ∈ known, number ∈ set) ∧
    (∀ item ∈ items, ∀ target ∈ rules.targets item, target ∈ set) ∧
    ∀ number ∈ set, number ∉ known →
      ∀ item ∈ rules.opens number, ∀ target ∈ rules.targets item, target ∈ set}

namespace Worklist

variable {Item : Type} {rules : LookupRules Item}

/-- One of the pending items is looked up.  The numbers that it leads to for the first time are
added, in any order. -/
inductive Round (rules : LookupRules Item) : Worklist Item → Worklist Item → Prop where
  | lookUp
      {item : Item} {rest : Multiset Item} {known : Finset Nat} {added fresh : List Nat}
      (once : fresh.Nodup)
      (areFresh : ∀ target, target ∈ fresh ↔ target ∈ rules.targets item ∧ target ∉ known) :
      Round rules ⟨item ::ₘ rest, known, added⟩
        ⟨rest + Multiset.ofList (fresh.flatMap rules.opens), known ∪ fresh.toFinset,
          added ++ fresh⟩

/-- Some items, and those opened on the way, can be looked up in an order in which numbers are added
to the known ones as listed. -/
def Finds
    (rules : LookupRules Item) (items : Multiset Item) (known : Finset Nat) (added : List Nat) :
    Prop :=
  ∃ reached, Relation.ReflTransGen (Round rules) ⟨items, known, []⟩ ⟨0, reached, added⟩

/-! ## What holds between two rounds -/

/-- A worklist on the way from some items and known numbers: whatever has been opened is either
still pending or led to known numbers only. -/
structure OnTheWay
    (rules : LookupRules Item) (items : Multiset Item) (known : Finset Nat)
    (list : Worklist Item) : Prop where
  once : list.added.Nodup
  isNew : ∀ number ∈ list.added, number ∉ known
  known_eq : list.known = known ∪ list.added.toFinset
  waits : ∀ item, item ∈ items ∨ (∃ number ∈ list.added, item ∈ rules.opens number) →
    item ∈ list.pending ∨ ∀ target ∈ rules.targets item, target ∈ list.known
  inside : ∀ set ∈ rules.closedSets items known,
    (∀ number ∈ list.known, number ∈ set) ∧
      ∀ item ∈ list.pending, ∀ target ∈ rules.targets item, target ∈ set

theorem onTheWay_start (rules : LookupRules Item) (items : Multiset Item) (known : Finset Nat) :
    OnTheWay rules items known ⟨items, known, []⟩ where
  once := List.nodup_nil
  isNew := by simp
  known_eq := by simp
  waits := by
    rintro item (start | ⟨number, added, _⟩)
    · exact Or.inl start
    · cases added
  inside := fun _ closed => ⟨closed.1, closed.2.1⟩

theorem OnTheWay.round
    {items : Multiset Item} {known : Finset Nat} {list next : Worklist Item}
    (onTheWay : OnTheWay rules items known list) (round : Round rules list next) :
    OnTheWay rules items known next := by
  obtain ⟨once, isNew, known_eq, waits, inside⟩ := onTheWay
  cases round with
  | @lookUp item rest reached added fresh freshOnce areFresh =>
      simp only at known_eq waits inside once isNew
      have unknown : ∀ target ∈ fresh, target ∉ known ∧ target ∉ added := by
        intro target isFresh
        have notReached := ((areFresh target).mp isFresh).2
        rw [known_eq, Finset.mem_union, List.mem_toFinset] at notReached
        exact not_or.mp notReached
      refine ⟨?_, ?_, ?_, ?_, ?_⟩
      · exact once.append freshOnce fun number old isFresh => (unknown number isFresh).2 old
      · intro number member
        rcases List.mem_append.mp member with old | isFresh
        · exact isNew number old
        · exact (unknown number isFresh).1
      · simp only [known_eq, List.toFinset_append, Finset.union_assoc]
      · intro other opened
        simp only [Multiset.mem_add, Multiset.mem_coe, List.mem_flatMap, Finset.mem_union,
          List.mem_toFinset]
        by_cases openedNow : ∃ number ∈ fresh, other ∈ rules.opens number
        · exact Or.inl (Or.inr openedNow)
        · have openedBefore :
              other ∈ items ∨ ∃ number ∈ added, other ∈ rules.opens number := by
            refine opened.imp_right ?_
            rintro ⟨number, member, opens⟩
            rcases List.mem_append.mp member with old | isFresh
            · exact ⟨number, old, opens⟩
            · exact absurd ⟨number, isFresh, opens⟩ openedNow
          rcases waits other openedBefore with pending | settled
          · rcases Multiset.mem_cons.mp pending with rfl | later
            · -- The item that has just been looked up leads to known numbers from now on.
              right
              intro target leads
              by_cases isKnown : target ∈ reached
              · exact Or.inl isKnown
              · exact Or.inr ((areFresh target).mpr ⟨leads, isKnown⟩)
            · exact Or.inl (Or.inl later)
          · exact Or.inr fun target leads => Or.inl (settled target leads)
      · intro set closed
        obtain ⟨holdsKnown, holdsTargets⟩ := inside set closed
        have holdsFresh : ∀ target ∈ fresh, target ∈ set := fun target isFresh =>
          holdsTargets item (Multiset.mem_cons_self item rest) target
            ((areFresh target).mp isFresh).1
        constructor
        · intro number member
          rcases Finset.mem_union.mp member with old | isFresh
          · exact holdsKnown number old
          · exact holdsFresh number (List.mem_toFinset.mp isFresh)
        · intro other pending
          rcases Multiset.mem_add.mp pending with later | opened
          · exact holdsTargets other (Multiset.mem_cons_of_mem later)
          · obtain ⟨number, isFresh, opens⟩ := List.mem_flatMap.mp (Multiset.mem_coe.mp opened)
            exact closed.2.2 number (holdsFresh number isFresh) (unknown number isFresh).1 other
              opens

theorem OnTheWay.rounds
    {items : Multiset Item} {known : Finset Nat} {list next : Worklist Item}
    (onTheWay : OnTheWay rules items known list)
    (rounds : Relation.ReflTransGen (Round rules) list next) :
    OnTheWay rules items known next := by
  induction rounds with
  | refl => exact onTheWay
  | tail _ last inductionHypothesis => exact inductionHypothesis.round last

/-! ## The numbers found -/

namespace Finds

variable {items : Multiset Item} {known : Finset Nat} {added : List Nat}

theorem nodup (finds : Finds rules items known added) : added.Nodup := by
  obtain ⟨_, rounds⟩ := finds
  exact ((onTheWay_start rules items known).rounds rounds).once

theorem notMem_known (finds : Finds rules items known added) :
    ∀ number ∈ added, number ∉ known := by
  obtain ⟨_, rounds⟩ := finds
  exact ((onTheWay_start rules items known).rounds rounds).isNew

/-- Whatever the order, the known and the added numbers are the least closed set. -/
theorem isLeast (finds : Finds rules items known added) :
    IsLeast (rules.closedSets items known) {number | number ∈ known ∨ number ∈ added} := by
  obtain ⟨reached, rounds⟩ := finds
  have atTheEnd := (onTheWay_start rules items known).rounds rounds
  have mem_reached : ∀ number, number ∈ reached ↔ number ∈ known ∨ number ∈ added := by
    intro number
    have known_eq : reached = known ∪ added.toFinset := atTheEnd.known_eq
    rw [known_eq, Finset.mem_union, List.mem_toFinset]
  have settled : ∀ item, item ∈ items ∨ (∃ number ∈ added, item ∈ rules.opens number) →
      ∀ target ∈ rules.targets item, target ∈ known ∨ target ∈ added := by
    intro item opened target leads
    rcases atTheEnd.waits item opened with pending | known
    · exact absurd pending (Multiset.notMem_zero item)
    · exact (mem_reached target).mp (known target leads)
  refine ⟨⟨fun _ => Or.inl, fun item start => settled item (Or.inl start), ?_⟩, ?_⟩
  · intro number member unknown item opens
    exact settled item (Or.inr ⟨number, member.resolve_left unknown, opens⟩)
  · intro set closed number member
    exact (atTheEnd.inside set closed).1 number ((mem_reached number).mpr member)

end Finds

/-! ## Every run ends -/

/-- What is left to be looked up at most, if all numbers come from a pool. -/
def effort (rules : LookupRules Item) (pool : Finset Nat) (list : Worklist Item) : Nat :=
  list.pending.card + ∑ number ∈ pool \ list.known, (rules.opens number).length

theorem effort_lt_of_round
    {pool : Finset Nat} (inPool : ∀ item, ∀ target ∈ rules.targets item, target ∈ pool)
    {list next : Worklist Item} (round : Round rules list next) :
    effort rules pool next < effort rules pool list := by
  cases round with
  | @lookUp item rest known added fresh once areFresh =>
      have within : fresh.toFinset ⊆ pool \ known := by
        intro target isFresh
        obtain ⟨leads, unknown⟩ := (areFresh target).mp (List.mem_toFinset.mp isFresh)
        exact Finset.mem_sdiff.mpr ⟨inPool item target leads, unknown⟩
      have opened :
          (fresh.flatMap rules.opens).length =
            ∑ number ∈ fresh.toFinset, (rules.opens number).length := by
        rw [List.length_flatMap, List.sum_toFinset _ once]
      have left : pool \ (known ∪ fresh.toFinset) = (pool \ known) \ fresh.toFinset :=
        (sdiff_sdiff_left).symm
      have split := Finset.sum_sdiff (f := fun number => (rules.opens number).length) within
      simp only [effort, Multiset.card_add, Multiset.card_cons, Multiset.coe_card, opened, left]
      omega

/-- No run goes on forever. -/
def Terminates (rules : LookupRules Item) : Prop :=
  WellFounded fun next list => Round rules list next

theorem terminates_of_pool
    {pool : Finset Nat} (inPool : ∀ item, ∀ target ∈ rules.targets item, target ∈ pool) :
    Terminates rules :=
  Subrelation.wf (effort_lt_of_round inPool) (InvImage.wf (effort rules pool) Nat.lt_wfRel.wf)

theorem exists_round
    (rules : LookupRules Item) {list : Worklist Item} (waiting : list.pending ≠ 0) :
    ∃ next, Round rules list next := by
  obtain ⟨pending, known, added⟩ := list
  obtain ⟨item, isPending⟩ := Multiset.exists_mem_of_ne_zero waiting
  obtain ⟨rest, rfl⟩ := Multiset.exists_cons_of_mem isPending
  refine ⟨_, .lookUp (List.nodup_dedup ((rules.targets item).filter (· ∉ known))) ?_⟩
  intro target
  rw [List.mem_dedup, List.mem_filter, decide_eq_true_eq]

theorem Terminates.exists_finds
    (terminates : Terminates rules) (items : Multiset Item) (known : Finset Nat) :
    ∃ added, Finds rules items known added := by
  have reachesEnd : ∀ list : Worklist Item,
      ∃ reached added, Relation.ReflTransGen (Round rules) list ⟨0, reached, added⟩ := by
    intro list
    induction list using terminates.induction with
    | _ list inductionHypothesis =>
        by_cases waiting : list.pending = 0
        · obtain ⟨pending, known, added⟩ := list
          cases waiting
          exact ⟨known, added, .refl⟩
        · obtain ⟨next, round⟩ := exists_round rules waiting
          obtain ⟨reached, added, rounds⟩ := inductionHypothesis next round
          exact ⟨reached, added, .head round rounds⟩
  obtain ⟨reached, added, rounds⟩ := reachesEnd ⟨items, known, []⟩
  exact ⟨added, reached, rounds⟩

end Worklist

end Inliner
