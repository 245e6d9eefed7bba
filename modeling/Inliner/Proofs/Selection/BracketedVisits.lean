import Inliner.Proofs.Selection.RunOrder
import Mathlib.Data.Finset.Card

/-!
# Visits that end as they began

Visits are nested along whatever the items need, cycles included.  Here they are told with all that
is kept meanwhile, the sets of items under way and of items that are done, and with a limit on the
nesting that makes a call fail when it is exceeded.  A limit just above the number of items is never
exceeded: along nested calls the items under way are different ones.  Every call leaves the items
under way as it found them, places items only behind those placed before, and none of them twice.
-/

namespace Inliner

/-- What is kept while items are placed: the items whose needs are being placed, the items placed so
far, in order, and the items that are done. -/
structure PlacementLedger where
  visiting : Finset Nat
  emitted : List Nat
  done : Finset Nat
deriving DecidableEq

namespace PlacementLedger

/-- Nothing has been placed. -/
def empty : PlacementLedger := ⟨∅, [], ∅⟩

/-- Places an item behind what it needs, with calls nested at most so deep; it fails if that is not
enough. -/
def visit? (needs : Nat → List Nat) : Nat → PlacementLedger → Nat → Option PlacementLedger
  | 0, _, _ => none
  | depth + 1, ledger, item =>
      if item ∈ ledger.done ∨ item ∈ ledger.visiting then
        some ledger
      else
        ((needs item).foldlM (visit? needs depth)
            { ledger with visiting := insert item ledger.visiting }).map fun served =>
          ⟨served.visiting.erase item, served.emitted ++ [item], insert item served.done⟩

/-- The items that are done are those placed, each of them once, and none of them is under way;
the items under way come from a pool. -/
structure IsSound (pool : Finset Nat) (ledger : PlacementLedger) : Prop where
  done_eq : ledger.done = ledger.emitted.toFinset
  nodup : ledger.emitted.Nodup
  idle : ∀ item ∈ ledger.emitted, item ∉ ledger.visiting
  inPool : ledger.visiting ⊆ pool

/-- One ledger is left behind by calls made on another one. -/
structure Extends (before after : PlacementLedger) : Prop where
  visiting_eq : after.visiting = before.visiting
  isPrefix : before.emitted <+: after.emitted

theorem Extends.refl (ledger : PlacementLedger) : ledger.Extends ledger :=
  ⟨rfl, List.prefix_rfl⟩

theorem Extends.trans {first second third : PlacementLedger}
    (left : first.Extends second) (right : second.Extends third) : first.Extends third :=
  ⟨right.visiting_eq.trans left.visiting_eq, left.isPrefix.trans right.isPrefix⟩

variable {needs : Nat → List Nat} {pool : Finset Nat} {ledger after : PlacementLedger}
  {depth item : Nat}

theorem isSound_empty (pool : Finset Nat) : empty.IsSound pool where
  done_eq := rfl
  nodup := List.nodup_nil
  idle := by simp [empty]
  inPool := Finset.empty_subset pool

/-! ## Calls with a sufficient limit -/

/-- An item that is neither done nor under way can be entered. -/
theorem IsSound.enter
    (sound : ledger.IsSound pool) (known : item ∈ pool) (fresh : item ∉ ledger.done) :
    IsSound pool { ledger with visiting := insert item ledger.visiting } where
  done_eq := sound.done_eq
  nodup := sound.nodup
  idle := by
    intro other placed under
    rcases Finset.mem_insert.mp under with rfl | before
    · rw [sound.done_eq, List.mem_toFinset] at fresh
      exact fresh placed
    · exact sound.idle other placed before
  inPool := Finset.insert_subset known sound.inPool

/-- An item that is under way can be left. -/
theorem IsSound.leave (sound : ledger.IsSound pool) (under : item ∈ ledger.visiting) :
    IsSound pool
      ⟨ledger.visiting.erase item, ledger.emitted ++ [item], insert item ledger.done⟩ where
  done_eq := by
    rw [sound.done_eq, List.toFinset_append, Finset.insert_eq, Finset.union_comm]
    rfl
  nodup := by
    have notPlaced : item ∉ ledger.emitted := fun placed => sound.idle item placed under
    exact sound.nodup.append (List.nodup_singleton item) (by simpa using notPlaced)
  idle := by
    intro other placed under
    obtain ⟨different, before⟩ := Finset.mem_erase.mp under
    rcases List.mem_append.mp placed with earlier | last
    · exact sound.idle other earlier before
    · exact different (List.mem_singleton.mp last)
  inPool := (Finset.erase_subset _ _).trans sound.inPool

/-- What a call on an item does, if it ends. -/
structure Ends (pool : Finset Nat) (ledger : PlacementLedger) (item : Nat)
    (after : PlacementLedger) : Prop where
  extends_ledger : ledger.Extends after
  sound : after.IsSound pool
  met : item ∈ after.done ∨ item ∈ ledger.visiting

/-- Calls one after the other end, if each of them does. -/
theorem exists_foldlM_visit?
    (each : ∀ before : PlacementLedger, before.IsSound pool →
      before.visiting = ledger.visiting → ∀ item ∈ pool,
        ∃ after, visit? needs depth before item = some after ∧ before.Ends pool item after)
    {items : List Nat} (known : ∀ item ∈ items, item ∈ pool) (sound : ledger.IsSound pool) :
    ∃ after, items.foldlM (visit? needs depth) ledger = some after ∧
      ledger.Extends after ∧ after.IsSound pool ∧
      ∀ item ∈ items, item ∈ after.done ∨ item ∈ ledger.visiting := by
  induction items generalizing ledger with
  | nil => exact ⟨ledger, rfl, .refl ledger, sound, by simp⟩
  | cons head tail inductionHypothesis =>
      obtain ⟨headKnown, tailKnown⟩ := List.forall_mem_cons.mp known
      obtain ⟨middle, called, further, middleSound, headMet⟩ :=
        each ledger sound rfl head headKnown
      obtain ⟨last, ends, furtherStill, lastSound, tailMet⟩ :=
        inductionHypothesis (fun before beforeSound same =>
          each before beforeSound (same.trans further.visiting_eq)) tailKnown middleSound
      rw [further.visiting_eq] at tailMet
      refine ⟨last, ?_, further.trans furtherStill, lastSound,
        List.forall_mem_cons.mpr ⟨?_, tailMet⟩⟩
      · rw [List.foldlM_cons, called]
        exact ends
      · refine headMet.imp_left fun done => ?_
        rw [middleSound.done_eq, List.mem_toFinset] at done
        rw [lastSound.done_eq, List.mem_toFinset]
        exact furtherStill.isPrefix.subset done

/-- A call ends if its limit exceeds the number of items that are not under way. -/
theorem exists_visit?
    (closed : ∀ item ∈ pool, ∀ need ∈ needs item, need ∈ pool) (sound : ledger.IsSound pool)
    (known : item ∈ pool) (bound : pool.card < depth + ledger.visiting.card) :
    ∃ after, visit? needs depth ledger item = some after ∧ ledger.Ends pool item after := by
  induction depth generalizing ledger item with
  | zero =>
      have atMost := Finset.card_le_card sound.inPool
      omega
  | succ depth inductionHypothesis =>
      rw [visit?]
      by_cases met : item ∈ ledger.done ∨ item ∈ ledger.visiting
      · rw [if_pos met]
        exact ⟨ledger, rfl, .refl ledger, sound, met⟩
      · rw [if_neg met]
        obtain ⟨fresh, idle⟩ := not_or.mp met
        have entered := sound.enter known fresh
        have oneMore := Finset.card_insert_of_notMem idle
        -- The item under way makes up for the limit, which is one lower in the nested calls.
        have nested : ∀ before : PlacementLedger, before.IsSound pool →
            before.visiting = insert item ledger.visiting → ∀ other ∈ pool,
              ∃ after, visit? needs depth before other = some after ∧
                before.Ends pool other after := by
          intro before beforeSound same other otherKnown
          exact inductionHypothesis beforeSound otherKnown (by rw [same]; omega)
        obtain ⟨served, ends, further, servedSound, _⟩ :=
          exists_foldlM_visit? nested (closed item known) entered
        have under : item ∈ served.visiting := by
          rw [further.visiting_eq]
          exact Finset.mem_insert_self item ledger.visiting
        refine ⟨_, by rw [ends]; rfl, ⟨?_, ?_⟩, servedSound.leave under, ?_⟩
        · dsimp only
          rw [further.visiting_eq, Finset.erase_insert idle]
        · exact further.isPrefix.trans (List.prefix_append _ _)
        · exact Or.inl (Finset.mem_insert_self item served.done)

/-! ## Limits do not matter -/

theorem foldlM_visit?_of_visit?
    {deeper : Nat}
    (each : ∀ (before after : PlacementLedger) (item : Nat),
      visit? needs depth before item = some after → visit? needs deeper before item = some after)
    {items : List Nat} (ends : items.foldlM (visit? needs depth) ledger = some after) :
    items.foldlM (visit? needs deeper) ledger = some after := by
  induction items generalizing ledger with
  | nil => exact ends
  | cons head tail inductionHypothesis =>
      rw [List.foldlM_cons] at ends ⊢
      obtain ⟨middle, called, rest⟩ := Option.bind_eq_some_iff.mp ends
      exact Option.bind_eq_some_iff.mpr ⟨middle, each ledger middle head called,
        inductionHypothesis rest⟩

/-- A call that ends under some limit ends in the same way under any higher one. -/
theorem visit?_of_le
    {deeper : Nat} (atLeast : depth ≤ deeper) (ends : visit? needs depth ledger item = some after) :
    visit? needs deeper ledger item = some after := by
  induction depth generalizing deeper ledger item after with
  | zero => cases ends
  | succ depth inductionHypothesis =>
      obtain ⟨further, rfl⟩ := Nat.exists_eq_add_of_le' atLeast
      rw [← Nat.add_assoc, visit?]
      rw [visit?] at ends
      by_cases met : item ∈ ledger.done ∨ item ∈ ledger.visiting
      · rw [if_pos met] at ends ⊢
        exact ends
      · rw [if_neg met] at ends ⊢
        obtain ⟨served, inner, left⟩ := Option.map_eq_some_iff.mp ends
        refine Option.map_eq_some_iff.mpr ⟨served, ?_, left⟩
        exact foldlM_visit?_of_visit?
          (fun _ _ _ called => inductionHypothesis (Nat.le_add_left depth further) called) inner

/-! ## The placement without a record of what is done -/

/-- The ledger of a placement: what has been placed is done. -/
def ofPlacement (placement : Placement) : PlacementLedger :=
  ⟨placement.visiting.toFinset, placement.emitted, placement.emitted.toFinset⟩

theorem foldlM_visit?_ofPlacement
    (each : ∀ (placement : Placement) (item : Nat) (after : PlacementLedger),
      visit? needs depth (ofPlacement placement) item = some after →
        after = ofPlacement (placement.visit needs depth item) ∧
          (placement.visit needs depth item).visiting = placement.visiting)
    {items : List Nat} (placement : Placement)
    (ends : items.foldlM (visit? needs depth) (ofPlacement placement) = some after) :
    after = ofPlacement (items.foldl (Placement.visit needs depth) placement) ∧
      (items.foldl (Placement.visit needs depth) placement).visiting = placement.visiting := by
  induction items generalizing placement with
  | nil => exact ⟨(Option.some.inj ends).symm, rfl⟩
  | cons head tail inductionHypothesis =>
      rw [List.foldlM_cons] at ends
      obtain ⟨middle, called, rest⟩ := Option.bind_eq_some_iff.mp ends
      obtain ⟨rfl, same⟩ := each placement head middle called
      obtain ⟨last, sameStill⟩ := inductionHypothesis _ rest
      exact ⟨last, sameStill.trans same⟩

/-- A call that ends does what the visit of the placement does. -/
theorem visit?_ofPlacement
    (placement : Placement) (item : Nat) (after : PlacementLedger)
    (ends : visit? needs depth (ofPlacement placement) item = some after) :
    after = ofPlacement (placement.visit needs depth item) ∧
      (placement.visit needs depth item).visiting = placement.visiting := by
  induction depth generalizing placement item after with
  | zero => cases ends
  | succ depth inductionHypothesis =>
      rw [visit?] at ends
      rw [Placement.visit]
      simp only [ofPlacement, List.mem_toFinset] at ends
      by_cases met : item ∈ placement.emitted ∨ item ∈ placement.visiting
      · rw [if_pos met] at ends ⊢
        exact ⟨(Option.some.inj ends).symm, rfl⟩
      · rw [if_neg met] at ends ⊢
        obtain ⟨served, inner, rfl⟩ := Option.map_eq_some_iff.mp ends
        rw [← List.toFinset_cons] at inner
        obtain ⟨rfl, same⟩ := foldlM_visit?_ofPlacement inductionHypothesis
          { placement with visiting := item :: placement.visiting } inner
        dsimp only
        rw [same, List.erase_cons_head]
        refine ⟨?_, rfl⟩
        have idle : item ∉ placement.visiting.toFinset := fun under =>
          met (Or.inr (List.mem_toFinset.mp under))
        simp only [ofPlacement, same, List.toFinset_cons, Finset.erase_insert idle,
          List.toFinset_append, List.toFinset_nil, Finset.union_insert, Finset.union_empty]

/-! ## Limits above the number of items -/

/-- All limits above the number of items that are not under way let a call end in the same way. -/
theorem exists_visit?_of_every_limit
    (closed : ∀ item ∈ pool, ∀ need ∈ needs item, need ∈ pool) (sound : ledger.IsSound pool)
    (known : item ∈ pool) :
    ∃ after,
      (∀ depth, pool.card < depth + ledger.visiting.card →
        visit? needs depth ledger item = some after) ∧
      ledger.Ends pool item after := by
  have atMost := Finset.card_le_card sound.inPool
  have enough : pool.card < pool.card + 1 - ledger.visiting.card + ledger.visiting.card := by
    omega
  obtain ⟨after, ends, outcome⟩ := exists_visit? closed sound known enough
  refine ⟨after, ?_, outcome⟩
  intro depth bound
  exact visit?_of_le (by omega) ends

/-- All limits above the number of items let calls that follow each other end in the same way, and
the placement made with lists is the same. -/
theorem exists_visits_of_every_limit
    (closed : ∀ item ∈ pool, ∀ need ∈ needs item, need ∈ pool)
    {items : List Nat} (known : ∀ item ∈ items, item ∈ pool) :
    ∃ after,
      (∀ depth, pool.card < depth →
        items.foldlM (visit? needs depth) empty = some after ∧
          Placement.visitAll needs depth items = ⟨[], after.emitted⟩) ∧
      empty.Extends after ∧ after.IsSound pool ∧ ∀ item ∈ items, item ∈ after.done := by
  have each : ∀ before : PlacementLedger, before.IsSound pool → before.visiting = ∅ →
      ∀ item ∈ pool, ∃ after, visit? needs (pool.card + 1) before item = some after ∧
        before.Ends pool item after :=
    fun before sound _ item known => exists_visit? closed sound known (by omega)
  obtain ⟨after, ends, further, sound, met⟩ :=
    exists_foldlM_visit? each known (isSound_empty pool)
  refine ⟨after, ?_, further, sound, ?_⟩
  · intro depth bound
    have endsDeeper : items.foldlM (visit? needs depth) empty = some after :=
      foldlM_visit?_of_visit? (fun _ _ _ called => visit?_of_le bound called) ends
    obtain ⟨rfl, same⟩ := foldlM_visit?_ofPlacement visit?_ofPlacement .empty endsDeeper
    exact ⟨endsDeeper, congrArg (Placement.mk · _) same⟩
  · intro item visited
    exact (met item visited).resolve_right (Finset.notMem_empty item)

end PlacementLedger

/-! ## Visits to selected segments -/

namespace ParsedSource

open PlacementLedger (visit?)

/-- Visits to the segments selected with any chosen definitions, in any sequence.  A call made while
others are under way ends with its own calls nested no deeper than the number of selected segments
that are not under way, and one more; it leaves the segments under way as it found them, places
segments only behind those placed before and keeps what is done equal to what has been placed,
without repetition.  A segment visited while nothing is under way is done afterwards. -/
theorem visits_end_as_they_began (source : ParsedSource) (chosen : List Nat) :
    (∀ (ledger : PlacementLedger) (index : Nat),
      ledger.IsSound (source.selectable chosen).toFinset →
      index ∈ source.selectable chosen →
      ∃ after : PlacementLedger,
        (∀ depth, (source.selectable chosen).length < depth + ledger.visiting.card →
          visit? (source.placedBefore chosen) depth ledger index = some after) ∧
        after.visiting = ledger.visiting ∧
        ledger.emitted <+: after.emitted ∧
        after.IsSound (source.selectable chosen).toFinset ∧
        (ledger.visiting = ∅ → index ∈ after.done)) ∧
      ∀ calls : List Nat, (∀ index ∈ calls, index ∈ source.selectable chosen) →
        ∃ after : PlacementLedger,
          (∀ depth, (source.selectable chosen).length < depth →
            calls.foldlM (visit? (source.placedBefore chosen) depth) .empty = some after ∧
              Placement.visitAll (source.placedBefore chosen) depth calls = ⟨[], after.emitted⟩) ∧
          after.visiting = ∅ ∧
          after.done = after.emitted.toFinset ∧
          after.emitted.Nodup ∧
          ∀ index ∈ calls, index ∈ after.done := by
  have card_eq : (source.selectable chosen).toFinset.card = (source.selectable chosen).length :=
    List.toFinset_card_of_nodup (List.nodup_range.filter _)
  have closed : ∀ index ∈ (source.selectable chosen).toFinset,
      ∀ need ∈ source.placedBefore chosen index, need ∈ (source.selectable chosen).toFinset :=
    fun _ _ _ needed => List.mem_toFinset.mpr (mem_selectable_of_mem_placedBefore needed)
  rw [← card_eq]
  constructor
  · intro ledger index sound selected
    obtain ⟨after, ends, further, afterSound, met⟩ :=
      PlacementLedger.exists_visit?_of_every_limit closed sound (List.mem_toFinset.mpr selected)
    refine ⟨after, ends, further.visiting_eq, further.isPrefix, afterSound, ?_⟩
    intro nothing
    rw [nothing] at met
    exact met.resolve_right (Finset.notMem_empty index)
  · intro calls selected
    obtain ⟨after, ends, further, afterSound, done⟩ :=
      PlacementLedger.exists_visits_of_every_limit closed
        fun index visited => List.mem_toFinset.mpr (selected index visited)
    exact ⟨after, ends, further.visiting_eq, afterSound.done_eq, afterSound.nodup, done⟩

/-- Two definitions whose headers read each other. -/
def crossedHeaders : Text :=
  "def f(x=g):\n    return x\n\ndef g(x=f):\n    return x\n".toList

/-- The limit cannot be lowered: the second definition is visited within the first one, and the
first one again within the second one. -/
theorem visits_crossedHeaders :
    ∃ source,
      parse crossedHeaders = .ok source ∧
      source.selectable [0, 1] = [0, 1] ∧
      visit? (source.placedBefore [0, 1]) 2 .empty 0 = none ∧
      ∃ after, visit? (source.placedBefore [0, 1]) 3 .empty 0 = some after ∧
        after.visiting = ∅ ∧ 0 ∈ after.done := by
  have facts : ∃ source,
      parse crossedHeaders = .ok source ∧
      source.selectable [0, 1] = [0, 1] ∧
      visit? (source.placedBefore [0, 1]) 2 .empty 0 = none :=
    ⟨(parse crossedHeaders).toOption.getD default, by decide +kernel⟩
  obtain ⟨source, parsed, selected, tooLow⟩ := facts
  obtain ⟨after, ends, visiting, _, _, done⟩ :=
    (visits_end_as_they_began source [0, 1]).1 .empty 0 (PlacementLedger.isSound_empty _)
      (by simp [selected])
  refine ⟨source, parsed, selected, tooLow, after, ends 3 ?_, visiting, done rfl⟩
  rw [selected]
  decide

end ParsedSource

end Inliner
