import Hashring.KeyScan

/-! The pages of one node followed from token to token while its state stands
still (crates/hashring-node/src/keyspace.rs). -/
namespace Hashring

structure PageLimits.Roomy (limits : PageLimits) : Prop where
  keys : 1 ≤ limits.maxKeys
  bytes : 1 ≤ limits.maxBytes
  examined : 2 ≤ limits.maxExamined

theorem PageLimits.Roomy.unreached {limits : PageLimits} (roomy : limits.Roomy) :
    limits.reached { examined := 1 } = false := by
  obtain ⟨keys, bytes, examined⟩ := roomy
  have keysLeft : ¬limits.maxKeys ≤ 0 := by omega
  have bytesLeft : ¬limits.maxBytes ≤ 0 := by omega
  have examinedLeft : ¬limits.maxExamined ≤ 1 := by omega
  simp [PageLimits.reached, keysLeft, bytesLeft, examinedLeft]

namespace NodeState

variable (state : NodeState) (nodeId : String) (unixMillis : Nat) (limits : PageLimits)

def pagesFrom : Nat → Token → Option (List KeyPage)
  | 0, _ => none
  | turns + 1, start =>
      let page := state.ownedKeysPage nodeId unixMillis limits start
      match page.next with
      | none => some [page]
      | some next => (pagesFrom turns next).map (page :: ·)

variable {state nodeId unixMillis limits} in
theorem pages_from_unique {first second : Nat} {start : Token} {pages others : List KeyPage}
    (followed : state.pagesFrom nodeId unixMillis limits first start = some pages)
    (again : state.pagesFrom nodeId unixMillis limits second start = some others) : pages = others := by
  induction first generalizing second start pages others with
  | zero => exact absurd followed (by simp [pagesFrom])
  | succ first ih =>
      cases second with
      | zero => exact absurd again (by simp [pagesFrom])
      | succ second =>
          rw [pagesFrom] at followed again
          cases next : (state.ownedKeysPage nodeId unixMillis limits start).next with
          | none =>
              simp only [next, Option.some.injEq] at followed again
              rw [← followed, ← again]
          | some token =>
              simp only [next, Option.map_eq_some_iff] at followed again
              obtain ⟨rest, later, rfl⟩ := followed
              obtain ⟨more, onward, rfl⟩ := again
              rw [ih later onward]

variable {state limits}

variable (limits) in
/-- A ring without points has no owners and lists nothing. -/
theorem owned_keys_page_unassigned (unassigned : state.topology.assignments = []) (start : Token) :
    state.ownedKeysPage nodeId unixMillis limits start = {} := by
  have none_ : state.topology.segmentAt start = none := by
    simp [TopologySnapshot.segmentAt, unassigned]
  unfold ownedKeysPage pageFrom
  split
  · rfl
  · rename_i found
    exact absurd (none_.symm.trans found) (by simp)

theorem listed_unassigned (unassigned : state.topology.assignments = []) (low high : Token) :
    state.listed nodeId unixMillis low high = [] := by
  rw [listed, List.map_eq_nil_iff, List.filter_eq_nil_iff]
  intro entry _ inside
  simp [TopologySnapshot.ownerId, TopologySnapshot.ownerAssignment, SuccessorRing.successor,
    unassigned] at inside

/-- What a chain of pages from `start` to the end of the ring holds. -/
structure Followed (state : NodeState) (nodeId : String) (unixMillis : Nat) (limits : PageLimits)
    (start : Token)
    (pages : List KeyPage) : Prop where
  keys : pages.flatMap (·.keys) = shown limits.countOnly
    (state.listed nodeId unixMillis start (tokenMax + 1))
  count : (pages.map (·.count)).sum = (state.listed nodeId unixMillis start (tokenMax + 1)).length
  rising : (start :: pages.filterMap (·.next)).Pairwise (· < ·)

theorem pages_followed (sized : RingSized state.topology) (roomy : limits.Roomy)
    (jumping : limits.oneStretch = false) {start : Token} (inside : start ≤ tokenMax) :
    ∃ turns pages, state.pagesFrom nodeId unixMillis limits turns start = some pages ∧
      Followed state nodeId unixMillis limits start pages := by
  -- What is left of the ring shrinks with every page.
  induction left : tokenMax - start using Nat.strongRecOn generalizing start with
  | ind left ih =>
      subst left
      have covers : state.Covers nodeId unixMillis limits start {}
          (state.ownedKeysPage nodeId unixMillis limits start) :=
        state.page_from_covers nodeId unixMillis limits sized {} start inside rfl
      have moves : start < (state.ownedKeysPage nodeId unixMillis limits start).stop :=
        state.page_from_moves nodeId unixMillis limits sized {} inside rfl roomy.unreached
          fun stretch => absurd (jumping.symm.trans stretch) (by simp)
      generalize paged : state.ownedKeysPage nodeId unixMillis limits start = page at covers moves
      cases next : page.next with
      | none =>
          have stop : page.stop = tokenMax + 1 := by rw [KeyPage.stop, next, Option.getD_none]
          refine ⟨1, [page], by simp [pagesFrom, paged, next], ?_, ?_, by simp [next]⟩
          · simpa [stop] using covers.keys
          · simpa [stop] using covers.count
      | some token =>
          have stop : page.stop = token := by rw [KeyPage.stop, next, Option.getD_some]
          rw [stop] at moves
          have within : token ≤ tokenMax := covers.within token next
          obtain ⟨turns, pages, followed, rest⟩ :=
            ih (tokenMax - token) (Nat.sub_lt_sub_left (moves.trans_le within) moves)
            within rfl
          have joined := state.listed_append nodeId unixMillis moves.le
              (within.trans (Nat.le_succ tokenMax))
          refine ⟨turns + 1, page :: pages, by simp [pagesFrom, paged, next, followed], ?_, ?_, ?_⟩
          · rw [List.flatMap_cons, rest.keys, covers.keys, stop, ← joined]
            exact shown_append _ _ _
          · rw [List.map_cons, List.sum_cons, rest.count, covers.count, stop, ← joined,
              List.length_append]
            simp
          · have climbs : (token :: pages.filterMap (·.next)).Pairwise (· < ·) := rest.rising
            rw [List.filterMap_cons_some next]
            refine List.pairwise_cons.mpr ⟨fun later member => ?_, climbs⟩
            rcases List.mem_cons.mp member with rfl | member
            · exact moves
            · exact moves.trans ((List.pairwise_cons.mp climbs).1 later member)

theorem stretch_page (sized : RingSized state.topology) (roomy : limits.Roomy)
    (stretch : limits.oneStretch = true) {start : Token} (inside : start ≤ tokenMax)
    (owned : state.topology.ownerId start = some nodeId) :
    start < (state.ownedKeysPage nodeId unixMillis limits start).stop ∧
      (state.ownedKeysPage nodeId unixMillis limits start).keys = shown limits.countOnly
        (state.listed nodeId unixMillis start (state.ownedKeysPage nodeId unixMillis limits start).stop) ∧
      (state.ownedKeysPage nodeId unixMillis limits start).count =
        (state.listed nodeId unixMillis start
          (state.ownedKeysPage nodeId unixMillis limits start).stop).length ∧
      ∀ token, start ≤ token → token < (state.ownedKeysPage nodeId unixMillis limits start).stop →
        state.topology.ownerId token = some nodeId := by
  have covers : state.Covers nodeId unixMillis limits start {}
      (state.ownedKeysPage nodeId unixMillis limits start) :=
    state.page_from_covers nodeId unixMillis limits sized {} start inside rfl
  have moves : start < (state.ownedKeysPage nodeId unixMillis limits start).stop :=
    state.page_from_moves nodeId unixMillis limits sized {} inside rfl roomy.unreached fun _ => owned
  refine ⟨moves, ?_, ?_, covers.stretch stretch⟩
  · simpa using covers.keys
  · simpa using covers.count

end NodeState

/-- Following the pages of a node lists each of its live keys once, in token order,
and ends; a page of one stretch lists the node's live keys up to where it stops,
which is past its start. -/
theorem key_paging_complete (hashing : Hashing) (state : NodeState)
    (indexed : state.RecordsIndexed hashing)
    (wide : ∀ assignment ∈ state.topology.assignments, assignment.token ≤ tokenMax)
    (hashed : ∀ key, state.tokenOf hashing key ≤ tokenMax) (nodeId : String) (unixMillis : Nat)
    (limits : PageLimits) (roomy : limits.Roomy) :
    (limits.oneStretch = false → ∃ turns pages keys,
      state.pagesFrom nodeId unixMillis limits turns 0 = some pages ∧
      (0 :: pages.filterMap (·.next)).Pairwise (· < ·) ∧
      keys.Nodup ∧ keys.Pairwise (fun early late => state.tokenOf hashing early ≤
        state.tokenOf hashing late) ∧
      (∀ key, key ∈ keys ↔ state.topology.ownerId (state.tokenOf hashing key) = some nodeId ∧
        state.isLive unixMillis key = true) ∧
      pages.flatMap (·.keys) = (if limits.countOnly then [] else keys) ∧ (pages.map (·.count)).sum =
        keys.length) ∧
    (limits.oneStretch = true → ∀ start ≤ tokenMax, state.topology.ownerId start = some nodeId →
      (∀ next, (state.ownedKeysPage nodeId unixMillis limits start).next = some next → start < next) ∧
      ∃ keys, keys.Nodup ∧
        (∀ key, key ∈ keys ↔ start ≤ state.tokenOf hashing key ∧
          (∀ next, (state.ownedKeysPage nodeId unixMillis limits start).next = some next →
            state.tokenOf hashing key < next) ∧
          state.topology.ownerId (state.tokenOf hashing key) = some nodeId ∧
            state.isLive unixMillis key = true) ∧
        (state.ownedKeysPage nodeId unixMillis limits start).keys =
          (if limits.countOnly then [] else keys) ∧
        (state.ownedKeysPage nodeId unixMillis limits start).count = keys.length) := by
  constructor
  · intro jumping
    have members : ∀ key, key ∈ state.listed nodeId unixMillis 0 (tokenMax + 1) ↔
        state.topology.ownerId (state.tokenOf hashing key) = some nodeId ∧
            state.isLive unixMillis key = true := by
      intro key
      rw [NodeState.mem_listed nodeId unixMillis indexed]
      constructor
      · exact fun listed => listed.2.2
      · exact fun kept => ⟨Nat.zero_le _, Nat.lt_succ_of_le (hashed key), kept⟩
    have once := NodeState.listed_nodup nodeId unixMillis indexed 0 (tokenMax + 1)
    have sorted := NodeState.listed_sorted nodeId unixMillis indexed 0 (tokenMax + 1)
    by_cases assigned : state.topology.assignments = []
    · have empty := NodeState.listed_unassigned nodeId unixMillis assigned 0 (tokenMax + 1)
      have page := NodeState.owned_keys_page_unassigned nodeId unixMillis limits assigned 0
      refine ⟨1, [{}], _, by simp [NodeState.pagesFrom, page], by simp, once, sorted, members, ?_, ?_⟩
      · simp [empty]
      · simp [empty]
    · obtain ⟨turns, pages, followed, chain⟩ :=
        NodeState.pages_followed nodeId unixMillis ⟨assigned, wide⟩ roomy jumping
        (Nat.zero_le tokenMax)
      exact ⟨turns, pages, _, followed, chain.rising, once, sorted, members, chain.keys, chain.count⟩
  · intro stretch start inside owned
    have assigned : state.topology.assignments ≠ [] := by
      intro none_
      simp [TopologySnapshot.ownerId, TopologySnapshot.ownerAssignment, SuccessorRing.successor,
        none_] at owned
    obtain ⟨moves, keys, count, -⟩ :=
      NodeState.stretch_page nodeId unixMillis ⟨assigned, wide⟩ roomy stretch inside owned
    generalize state.ownedKeysPage nodeId unixMillis limits start = page at moves keys count
    -- Up to the stop means below the next token, or anywhere when there is none.
    have below : ∀ key, state.tokenOf hashing key < page.stop ↔
        ∀ next, page.next = some next → state.tokenOf hashing key < next := by
      intro key
      unfold KeyPage.stop
      cases page.next with
      | none => simpa using Nat.lt_succ_of_le (hashed key)
      | some next => simp
    refine ⟨fun next found => ?_, _, NodeState.listed_nodup nodeId unixMillis indexed start
      page.stop, fun key => ?_, keys, count⟩
    · rwa [KeyPage.stop, found, Option.getD_some] at moves
    · rw [NodeState.mem_listed nodeId unixMillis indexed, below]

namespace ScanSample

def paged : NodeState :=
  (holding joined keys).insertRecord hashing [byte 7]
    { record with expiresAtUnixMillis := some 5, deadlineNonzero := by decide }

def narrow : PageLimits :=
    { maxKeys := 1, maxBytes := 1, maxExamined := 2, countOnly := false, oneStretch := false }

/-- A page that may go on, but not past what the node owns. -/
def stretch : PageLimits :=
    { maxKeys := 9, maxBytes := 9, maxExamined := 99, countOnly := false, oneStretch := true }

/-- Six pages, with one that ends at an expired key and one at a token another node owns;
and a page that keeps to one stretch. -/
theorem key_paging_narrow_pages : (∃ turns pages keys, paged.pagesFrom "a" 10 narrow turns 0 =
    some pages ∧
      pages.map (·.keys) = [[], [[byte 4]], [[byte 1]], [[byte 5]], [], [[byte 1, byte 2], [byte 3]]] ∧
      pages.flatMap (·.keys) = keys ∧ keys.Nodup ∧
      ∀ key, key ∈ keys ↔ paged.topology.ownerId (paged.tokenOf hashing key) = some "a" ∧
        paged.isLive 10 key = true) ∧
    ∃ keys, (paged.ownedKeysPage "a" 10 stretch 25).keys = keys ∧ keys = [[byte 1], [byte 5]] ∧
      ∀ key, key ∈ keys ↔ 25 ≤ paged.tokenOf hashing key ∧ paged.tokenOf hashing key < 58 ∧
        paged.topology.ownerId (paged.tokenOf hashing key) = some "a" ∧ paged.isLive 10 key = true := by
  have indexed : paged.RecordsIndexed hashing :=
    NodeState.insert_record_indexed hashing _ _ _ (holding_indexed joined keys)
  have hashed : ∀ key, paged.tokenOf hashing key ≤ tokenMax :=
    fun _ => (Nat.mod_lt _ (by decide : 0 < 100)).le.trans (by decide)
  constructor
  · obtain ⟨turns, pages, keys, followed, -, once, -, members, listed, -⟩ :=
      (key_paging_complete hashing paged indexed (by decide +kernel) hashed "a" 10 narrow
        ⟨le_rfl, le_rfl, le_rfl⟩).1 rfl
    have shown : (paged.pagesFrom "a" 10 narrow 9 0).map (fun pages => pages.map (·.keys)) =
        some [[], [[byte 4]], [[byte 1]], [[byte 5]], [], [[byte 1, byte 2], [byte 3]]] :=
          by decide +kernel
    obtain ⟨others, again, named⟩ := Option.map_eq_some_iff.mp shown
    exact ⟨turns, pages, keys, followed, NodeState.pages_from_unique followed again ▸ named, listed,
      once, members⟩
  · obtain ⟨-, keys, -, members, listed, -⟩ :=
      (key_paging_complete hashing paged indexed (by decide +kernel) hashed "a" 10 stretch
      ⟨by decide, by decide, by decide⟩).2 rfl 25 (by decide) (by decide +kernel)
    have next : (paged.ownedKeysPage "a" 10 stretch 25).next = some 58 := by decide +kernel
    have shown : (paged.ownedKeysPage "a" 10 stretch 25).keys = [[byte 1], [byte 5]] := by decide +kernel
    have named : keys = [[byte 1], [byte 5]] := listed.symm.trans shown
    refine ⟨keys, listed, named, fun key => (members key).trans ?_⟩
    simp [next]

end ScanSample

end Hashring
