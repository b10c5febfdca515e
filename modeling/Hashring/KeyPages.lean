import Hashring.OwnerWrite
import Hashring.Placement
import Hashring.NodeIndices

/-! Pages of the keys a node owns (crates/hashring-node/src/keyspace.rs and the
`list_keys` call of rpc.rs). A page ends between tokens, so the token it stops at
says everything about where the next one starts. -/
namespace Hashring

/-- In a list in order of `position`, what two filters select side by side is what
they select together. -/
theorem filter_or_apart {α τ : Type} [LinearOrder τ] {position : α → τ} {list : List α}
    (sorted : list.Pairwise fun left right => position left ≤ position right) {before after : α → Bool}
    (apart : ∀ left right, before left = true → after right = true → position left < position right) :
    list.filter (fun entry => before entry || after entry) = list.filter before ++ list.filter after := by
  induction list with
  | nil => rfl
  | cons first rest ih =>
      obtain ⟨least, sorted⟩ := List.pairwise_cons.mp sorted
      by_cases early : before first = true
      · have notLate : after first = false := by
          by_contra late
          exact absurd (apart first first early (by simpa using late)) (lt_irrefl _)
        simp [early, notLate, ih sorted]
      · by_cases late : after first = true
        · -- Nothing behind the first late entry is an early one.
          have none_ : rest.filter before = [] := by
            rw [List.filter_eq_nil_iff]
            intro entry member hit
            exact absurd (apart entry first hit late) (not_lt.mpr (least entry member))
          simp [early, late, ih sorted, none_]
        · simp [early, late, ih sorted]

/-- `u64::MAX`. -/
def tokenMax : Token := 2 ^ 64 - 1

namespace TokenIndex

variable {α : Type} [LinearOrder α]

def entries (index : TokenIndex α) : List (Token × α) := index.elements.map ofLex

/-- The tokens of `by_token.range(first..=last)`. -/
def tokensIn (index : TokenIndex α) (first last : Token) : List Token :=
  ((index.entries.filter fun entry => first ≤ entry.1 ∧ entry.1 ≤ last).map (·.1)).dedup

/-- `TokenBucket::values`. -/
def valuesAt (index : TokenIndex α) (token : Token) : List α :=
  (index.entries.filter fun entry => entry.1 = token).map (·.2)

theorem mem_entries (index : TokenIndex α) (token : Token) (value : α) :
    (token, value) ∈ index.entries ↔ toLex (token, value) ∈ index := by
  constructor
  · intro member
    obtain ⟨entry, stored, same⟩ := List.mem_map.mp member
    rw [← same]
    exact stored
  · exact fun stored => List.mem_map.mpr ⟨_, stored, rfl⟩

theorem entries_sorted (index : TokenIndex α) :
    index.entries.Pairwise fun left right => left.1 ≤ right.1 := by
  refine List.Pairwise.map ofLex ?_ index.sorted.pairwise
  intro left right less
  exact (Prod.Lex.lt_iff.mp less).elim le_of_lt fun same => same.1.le

theorem tokens_in_sorted (index : TokenIndex α)
    (first last : Token) : (index.tokensIn first last).Pairwise (· < ·) := by
  have ordered : ((index.entries.filter fun entry => first ≤ entry.1 ∧ entry.1 ≤ last).map
      (·.1)).Pairwise (· ≤ ·) :=
    List.Pairwise.map _ (fun _ _ => id) (index.entries_sorted.filter _)
  have once := List.nodup_dedup
      ((index.entries.filter fun entry => first ≤ entry.1 ∧ entry.1 ≤ last).map (·.1))
  exact (ordered.sublist (List.dedup_sublist _)).imp₂ (fun _ _ => lt_of_le_of_ne) once

theorem mem_tokens_in (index : TokenIndex α) (first last token : Token) :
    token ∈ index.tokensIn first last ↔ first ≤ token ∧ token ≤ last ∧
      ∃ value, (token, value) ∈ index.entries := by
  simp only [tokensIn, List.mem_dedup, List.mem_map, List.mem_filter, decide_eq_true_eq]
  constructor
  · rintro ⟨entry, ⟨listed, low, high⟩, rfl⟩
    exact ⟨low, high, entry.2, listed⟩
  · rintro ⟨low, high, value, listed⟩
    exact ⟨(token, value), ⟨listed, low, high⟩, rfl⟩

theorem flatMap_values_at (index : TokenIndex α) {tokens : List Token}
    (sorted : tokens.Pairwise (· < ·)) :
    tokens.flatMap index.valuesAt = (index.entries.filter fun entry => entry.1 ∈ tokens).map (·.2) := by
  induction tokens with
  | nil => simp
  | cons token rest ih =>
      obtain ⟨least, sorted⟩ := List.pairwise_cons.mp sorted
      have split : (index.entries.filter fun entry => entry.1 ∈ token :: rest) =
          (index.entries.filter fun entry => entry.1 = token) ++ index.entries.filter fun entry =>
              entry.1 ∈ rest := by
        rw [← filter_or_apart index.entries_sorted]
        · congr 1
          funext entry
          simp
        · intro left right here there
          simp only [decide_eq_true_eq] at here there
          exact here ▸ least right.1 there
      rw [List.flatMap_cons, ih sorted, split, List.map_append, valuesAt]

end TokenIndex

structure PageLimits where
  maxKeys : Nat
  maxBytes : Nat
  maxExamined : Nat
  countOnly : Bool
  /-- Stop at the first segment another node owns, rather than jump over it. -/
  oneStretch : Bool
  deriving DecidableEq

structure KeyPage where
  keys : List Bytes := []
  count : Nat := 0
  /-- The token the next page starts at, or nothing at the end of the ring. -/
  next : Option Token := none
  deriving DecidableEq

/-- Where the page ends, the end of the ring included. -/
def KeyPage.stop (page : KeyPage) : Token := page.next.getD (tokenMax + 1)

structure Paging where
  examined : Nat := 0
  bytes : Nat := 0
  page : KeyPage := {}

def PageLimits.reached (limits : PageLimits) (paging : Paging) : Bool :=
  limits.maxExamined ≤ paging.examined || limits.maxKeys ≤ paging.page.count || limits.maxBytes ≤
    paging.bytes

def TopologySnapshot.segmentAt (topology : TopologySnapshot) (position : Token) :
    Option (Token × String) :=
  match topology.assignments[topology.partitionPoint position]? with
  | some assignment => some (assignment.token, assignment.nodeId)
  | none => topology.assignments.head?.map fun first => (tokenMax, first.nodeId)

namespace NodeState

variable (state : NodeState) (nodeId : String) (unixMillis : Nat) (limits : PageLimits)

def isLive (key : Bytes) : Bool :=
  (state.records.lookup key).any fun record => !record.deleted && !record.isExpired unixMillis

def examine (countOnly : Bool) (paging : Paging) (key : Bytes) : Paging :=
  let paging := { paging with examined := paging.examined + 1 }
  if state.isLive unixMillis key then
    { paging with
      bytes := if countOnly then paging.bytes else paging.bytes + key.length
      page := { paging.page with
        count := paging.page.count + 1
        keys := if countOnly then paging.page.keys else paging.page.keys ++ [key] } }
  else paging

/-- The buckets of a segment. The limits are checked before a token, never inside
one; the second part is the token they stopped at. -/
def takeTokens : Paging → List Token → Paging × Option Token
  | paging, [] => (paging, none)
  | paging, token :: rest =>
      if limits.reached paging then (paging, some token)
      else takeTokens ((state.recordsByToken.valuesAt token).foldl
        (state.examine unixMillis limits.countOnly) paging) rest

def takeSegment (paging : Paging) (position segmentEnd : Token) (owner : String) :
    Paging × Option Token :=
  if owner = nodeId then state.takeTokens unixMillis limits paging
    (state.recordsByToken.tokensIn position segmentEnd)
  else (paging, none)

end NodeState

/-- The first assignment at or after a token is the one its partition point counts
up to. -/
theorem assignment_at_partition (topology : TopologySnapshot) (position : Token) :
    topology.assignments[topology.partitionPoint position]? =
      topology.assignments.find? fun assignment => position ≤ assignment.token := by
  have parts : (topology.assignments.takeWhile fun assignment => assignment.token < position) ++
      (topology.assignments.dropWhile fun assignment => assignment.token < position) =
        topology.assignments :=
    List.takeWhile_append_dropWhile
  have found : (topology.assignments.find? fun assignment => position ≤ assignment.token) =
      (topology.assignments.dropWhile fun assignment => assignment.token < position).head? := by
    rw [List.find?_eq_head?_dropWhile_not]
    congr 2
    funext assignment
    rw [Bool.eq_iff_iff]
    simp
  generalize early : (topology.assignments.takeWhile fun assignment => assignment.token <
    position) = before at parts
  generalize (topology.assignments.dropWhile fun assignment => assignment.token < position) = after
    at parts found
  rw [found, TopologySnapshot.partitionPoint, early, ← parts, List.getElem?_append_right le_rfl,
    Nat.sub_self,
    List.head?_eq_getElem?]

theorem segment_found {topology : TopologySnapshot} {position segmentEnd : Token} {owner : String}
    (segment : topology.segmentAt position = some (segmentEnd, owner)) :
    (∃ assignment, (topology.assignments.find? fun assignment => position ≤ assignment.token) =
      some assignment ∧
      segmentEnd = assignment.token ∧ owner = assignment.nodeId) ∨
    ((∀ assignment ∈ topology.assignments, assignment.token < position) ∧ segmentEnd = tokenMax ∧
      ∃ first, topology.assignments.head? = some first ∧ owner = first.nodeId) := by
  unfold TopologySnapshot.segmentAt at segment
  rw [assignment_at_partition] at segment
  split at segment
  · rename_i assignment found
    obtain ⟨rfl, rfl⟩ := Prod.mk.inj (Option.some.inj segment)
    exact .inl ⟨assignment, found, rfl, rfl⟩
  · rename_i beyond
    obtain ⟨first, head, same⟩ := Option.map_eq_some_iff.mp segment
    obtain ⟨rfl, rfl⟩ := Prod.mk.inj same
    refine .inr ⟨?_, rfl, first, head, rfl⟩
    simpa using beyond

theorem segment_end_le {topology : TopologySnapshot} {position segmentEnd : Token} {owner : String}
    (segment : topology.segmentAt position = some (segmentEnd, owner)) :
    position ≤ segmentEnd ∨ segmentEnd = tokenMax := by
  rcases segment_found segment with ⟨assignment, found, rfl, -⟩ | ⟨-, last, -⟩
  · exact .inl (by simpa using List.find?_some found)
  · exact .inr last

theorem segment_owner {topology : TopologySnapshot} {position segmentEnd token : Token} {owner : String}
    (segment : topology.segmentAt position = some (segmentEnd, owner)) (low : position ≤ token)
    (high : token ≤ segmentEnd) :
    topology.ownerId token = some owner := by
  unfold TopologySnapshot.ownerId TopologySnapshot.ownerAssignment SuccessorRing.successor
  rcases segment_found segment with ⟨assignment, found, rfl, rfl⟩ | ⟨behind, -, first, head, rfl⟩
  · obtain ⟨-, early, late, parts, skipped⟩ := List.find?_eq_some_iff_append.mp found
    have same : (topology.assignments.find? fun entry => token ≤ entry.token) = some assignment := by
      refine List.find?_eq_some_iff_append.mpr ⟨by simpa using high, early, late, parts,
        fun entry member => ?_⟩
      have below : entry.token < position := by simpa using skipped entry member
      simpa using below.trans_le low
    simp [same]
  · have none_ : (topology.assignments.find? fun entry => token ≤ entry.token) = none := by
      rw [List.find?_eq_none]
      intro entry member
      simpa using (behind entry member).trans_le low
    simp [none_, head]

namespace NodeState

variable (state : NodeState) (nodeId : String) (unixMillis : Nat) (limits : PageLimits)

/-- The loop of `owned_keys_page`, one segment a turn. -/
def pageFrom (paging : Paging) (position : Token) : KeyPage :=
  match _segment : state.topology.segmentAt position with
  | none => paging.page
  | some (segmentEnd, owner) =>
      let paging := { paging with examined := paging.examined + 1 }
      if owner ≠ nodeId ∧ limits.oneStretch then { paging.page with next := some position }
      else
        match state.takeSegment nodeId unixMillis limits paging position segmentEnd owner with
        | (paging, some token) => { paging.page with next := some token }
        | (paging, none) =>
            if last : tokenMax ≤ segmentEnd then paging.page
            else if limits.maxExamined ≤
              paging.examined then { paging.page with next := some (segmentEnd + 1) }
            else pageFrom paging (segmentEnd + 1)
termination_by tokenMax - position
decreasing_by
  rcases segment_end_le _segment with inside | whole
  · exact Nat.sub_lt_sub_left (inside.trans_lt (not_le.mp last)) (Nat.lt_succ_of_le inside)
  · exact absurd whole.ge last

def ownedKeysPage (start : Token) : KeyPage := state.pageFrom nodeId unixMillis limits {} start

/-! What a page lists. -/

/-- The live keys the node owns at the tokens from `low` up to `high`. -/
def listed (low high : Token) : List Bytes :=
  (state.recordsByToken.entries.filter fun entry => low ≤ entry.1 && entry.1 < high &&
    (state.topology.ownerId entry.1 = some nodeId) && state.isLive unixMillis entry.2).map (·.2)

theorem listed_append {low middle high : Token} (early : low ≤ middle) (late : middle ≤ high) :
    state.listed nodeId unixMillis low middle ++ state.listed nodeId unixMillis middle high =
      state.listed nodeId unixMillis low high := by
  unfold listed
  rw [← List.map_append, ← filter_or_apart state.recordsByToken.entries_sorted]
  · congr 2
    funext entry
    by_cases inside : entry.1 < middle
    · have below : entry.1 < high := inside.trans_le late
      simp [inside, below, not_le.mpr inside]
    · have above : low ≤ entry.1 := early.trans (not_lt.mp inside)
      simp [inside, above, not_lt.mp inside]
  · intro left right before after
    simp only [Bool.and_eq_true, decide_eq_true_eq] at before after
    exact before.1.1.2.trans_le after.1.1.1

section Indexed

variable {state} {hashing : Hashing} (indexed : state.RecordsIndexed hashing)

include indexed

theorem entry_token {entry : Token × Bytes} (member : entry ∈ state.recordsByToken.entries) :
    entry.1 = state.tokenOf hashing entry.2 :=
  ((indexed entry.1 entry.2).mp ((TokenIndex.mem_entries _ _ _).mp member)).1

theorem listed_nodup (low high : Token) : (state.listed nodeId unixMillis low high).Nodup := by
  have once : state.recordsByToken.entries.Nodup := state.recordsByToken.sorted.nodup.map ofLex.injective
  refine List.Nodup.map_on ?_ (once.filter _)
  rintro ⟨first, key⟩ found ⟨second, _⟩ again rfl
  have early : first = state.tokenOf hashing key := entry_token indexed (List.mem_of_mem_filter found)
  have late : second = state.tokenOf hashing key := entry_token indexed (List.mem_of_mem_filter again)
  rw [early, late]

theorem mem_listed {low high : Token} {key : Bytes} :
    key ∈ state.listed nodeId unixMillis low high ↔
      low ≤ state.tokenOf hashing key ∧ state.tokenOf hashing key < high ∧
      state.topology.ownerId (state.tokenOf hashing key) = some nodeId ∧
        state.isLive unixMillis key = true := by
  simp only [listed, List.mem_map, List.mem_filter, Bool.and_eq_true, decide_eq_true_eq]
  constructor
  · rintro ⟨⟨at_, stored⟩, ⟨member, ⟨⟨low, high⟩, own⟩, live⟩, same⟩
    obtain rfl : stored = key := same
    obtain rfl : at_ = state.tokenOf hashing stored := entry_token indexed member
    exact ⟨low, high, own, live⟩
  · rintro ⟨low, high, own, live⟩
    have stored : key ∈ state.records := by
      unfold isLive at live
      cases found : state.records.lookup key with
      | none => exact absurd live (by simp [found])
      | some record => exact (AList.lookup_isSome).mp (by simp [found])
    have placed := (indexed (state.tokenOf hashing key) key).mpr ⟨rfl, stored⟩
    exact ⟨(state.tokenOf hashing key, key),
      ⟨(TokenIndex.mem_entries _ _ _).mpr placed, ⟨⟨low, high⟩, own⟩, live⟩, rfl⟩

theorem listed_sorted (low high : Token) : (state.listed nodeId unixMillis low high).Pairwise
    fun early late => state.tokenOf hashing early ≤ state.tokenOf hashing late := by
  refine List.pairwise_map.mpr ((state.recordsByToken.entries_sorted.filter _).imp_of_mem ?_)
  intro early late here there ordered
  rw [← entry_token indexed (List.mem_of_mem_filter here),
    ← entry_token indexed (List.mem_of_mem_filter there)]
  exact ordered

end Indexed

def shown (countOnly : Bool) (keys : List Bytes) : List Bytes := if countOnly then [] else keys

theorem shown_append (countOnly : Bool) (keys more : List Bytes) :
    shown countOnly keys ++ shown countOnly more = shown countOnly (keys ++ more) := by
  cases countOnly <;> rfl

structure Grows (countOnly : Bool) (before after : KeyPage) (gained : List Bytes) : Prop where
  keys : after.keys = before.keys ++ shown countOnly gained
  count : after.count = before.count + gained.length
  next : after.next = before.next

theorem Grows.refl (countOnly : Bool) (page : KeyPage) : Grows countOnly page page [] :=
  ⟨by cases countOnly <;> simp [shown], by simp, rfl⟩

theorem Grows.trans {countOnly : Bool} {first second third : KeyPage} {keys more : List Bytes}
    (early : Grows countOnly first second keys) (late : Grows countOnly second third more) :
    Grows countOnly first third (keys ++ more) where
  keys := by rw [late.keys, early.keys, List.append_assoc, shown_append]
  count := by rw [late.count, early.count, List.length_append, Nat.add_assoc]
  next := late.next.trans early.next

theorem examine_grows (countOnly : Bool) (paging : Paging) (key : Bytes) :
    Grows countOnly paging.page (state.examine unixMillis countOnly paging key).page
      ([key].filter (state.isLive unixMillis)) := by
  unfold examine
  by_cases live : state.isLive unixMillis key = true
  · simp only [live, if_true, List.filter_cons_of_pos, List.filter_nil]
    exact ⟨by cases countOnly <;> simp [shown], rfl, rfl⟩
  · simp only [live, if_false, Bool.false_eq_true, List.filter_nil, List.filter_cons_of_neg,
      not_false_eq_true]
    exact Grows.refl countOnly _

theorem bucket_grows (countOnly : Bool) (keys : List Bytes) (paging : Paging) :
    Grows countOnly paging.page (keys.foldl (state.examine unixMillis countOnly) paging).page
      (keys.filter (state.isLive unixMillis)) := by
  induction keys generalizing paging with
  | nil => exact Grows.refl countOnly _
  | cons key rest ih =>
      rw [List.foldl_cons, ← List.singleton_append, List.filter_append]
      exact (state.examine_grows unixMillis countOnly paging key).trans (ih _)

/-- The tokens taken are those before the one the limits stopped at, and at least
one while the limits are not reached. -/
theorem take_tokens_spec (paging : Paging) (tokens : List Token) :
    ∃ taken rest, tokens = taken ++ rest ∧ (state.takeTokens unixMillis limits paging tokens).2 =
      rest.head? ∧
      Grows limits.countOnly paging.page (state.takeTokens unixMillis limits paging tokens).1.page
        ((taken.flatMap state.recordsByToken.valuesAt).filter (state.isLive unixMillis)) ∧
      (limits.reached paging = false → tokens ≠ [] → taken ≠ []) := by
  induction tokens generalizing paging with
  | nil => exact ⟨[], [], rfl, rfl, Grows.refl _ _, fun _ some_ => absurd rfl some_⟩
  | cons token rest ih =>
      rw [takeTokens]
      by_cases full : limits.reached paging = true
      · simp only [full, if_true]
        exact ⟨[], token :: rest, rfl, rfl, Grows.refl _ _, fun open_ => absurd open_ (by simp)⟩
      · simp only [full, Bool.false_eq_true, if_false]
        obtain ⟨taken, left, same, stop, grows, -⟩ := ih
          ((state.recordsByToken.valuesAt token).foldl (state.examine unixMillis limits.countOnly) paging)
        refine ⟨token :: taken, left, by rw [same, List.cons_append], stop, ?_, fun _ _ => by simp⟩
        rw [List.flatMap_cons, List.filter_append]
        exact (state.bucket_grows unixMillis limits.countOnly _ paging).trans grows

theorem taken_iff {index : TokenIndex Bytes} {position segmentEnd : Token} {taken rest : List Token}
    (parts : index.tokensIn position segmentEnd = taken ++ rest) {token : Token}
    (present : ∃ value, (token, value) ∈ index.entries) :
    token ∈ taken ↔ position ≤ token ∧ token < rest.head?.getD (segmentEnd + 1) := by
  have sorted := index.tokens_in_sorted position segmentEnd
  have inside := index.mem_tokens_in position segmentEnd token
  rw [parts] at sorted inside
  have ordered := List.pairwise_append.mp sorted
  cases rest with
  | nil =>
      rw [List.append_nil] at inside
      rw [inside]
      exact ⟨fun found => ⟨found.1, Nat.lt_succ_of_le found.2.1⟩, fun found =>
        ⟨found.1, Nat.le_of_lt_succ found.2, present⟩⟩
  | cons stop later =>
      have stopped := (index.mem_tokens_in position segmentEnd stop).mp (parts ▸ by simp)
      constructor
      · intro found
        exact ⟨(inside.mp (List.mem_append_left _ found)).1, ordered.2.2 token found stop (by simp)⟩
      · rintro ⟨low, high⟩
        have high : token < stop := high
        rcases List.mem_append.mp (inside.mpr ⟨low, (high.trans_le stopped.2.1).le, present⟩)
          with found | behind
        · exact found
        · rcases List.mem_cons.mp behind with rfl | further
          · exact absurd high (lt_irrefl _)
          · exact absurd (high.trans ((List.pairwise_cons.mp ordered.2.1).1 token further)) (lt_irrefl _)

structure Takes (paging : Paging) (position segmentEnd : Token) (taken : Paging × Option Token) :
    Prop where
  grows : Grows limits.countOnly paging.page taken.1.page
    (state.listed nodeId unixMillis position (taken.2.getD (segmentEnd + 1)))
  stops : ∀ token, taken.2 = some token → position ≤ token ∧ token ≤ segmentEnd
  moves : limits.reached paging = false → ∀ token, taken.2 = some token → position < token

theorem take_segment_takes (paging : Paging) {position segmentEnd : Token} {owner : String}
    (segment : state.topology.segmentAt position = some (segmentEnd, owner)) :
    state.Takes nodeId unixMillis limits paging position segmentEnd
      (state.takeSegment nodeId unixMillis limits paging position segmentEnd owner) := by
  unfold takeSegment
  by_cases own : owner = nodeId
  · rw [if_pos own]
    obtain ⟨taken, rest, parts, stop, grows, some_⟩ := state.take_tokens_spec unixMillis limits paging
      (state.recordsByToken.tokensIn position segmentEnd)
    have sorted := state.recordsByToken.tokens_in_sorted position segmentEnd
    rw [parts] at sorted
    have ordered := List.pairwise_append.mp sorted
    -- The tokens that were left over lie in the segment as well.
    have bound : ∀ token, rest.head? = some token → position ≤ token ∧ token ≤ segmentEnd := by
      intro token head
      have member : token ∈ state.recordsByToken.tokensIn position segmentEnd := by
        rw [parts]
        exact List.mem_append_right _ (List.mem_of_head? head)
      obtain ⟨low, high, -⟩ := (state.recordsByToken.mem_tokens_in _ _ _).mp member
      exact ⟨low, high⟩
    refine ⟨?_, fun token found => bound token (stop ▸ found), fun open_ token found => ?_⟩
    · have same : (taken.flatMap state.recordsByToken.valuesAt).filter (state.isLive unixMillis) =
          state.listed nodeId unixMillis position (rest.head?.getD (segmentEnd + 1)) := by
        rw [state.recordsByToken.flatMap_values_at ordered.1, List.filter_map, List.filter_filter, listed]
        congr 1
        apply List.filter_congr
        intro entry member
        have inside := taken_iff parts ⟨entry.2, member⟩
        have limit : rest.head?.getD (segmentEnd + 1) ≤ segmentEnd + 1 := by
          cases head : rest.head? with
          | none => exact le_rfl
          | some token => exact (bound token head).2.trans (Nat.le_succ _)
        rw [Bool.eq_iff_iff]
        simp only [Function.comp_apply, Bool.and_eq_true, decide_eq_true_eq, inside]
        constructor
        · rintro ⟨live, low, high⟩
          exact ⟨⟨⟨low, high⟩, own ▸ segment_owner segment low
            (Nat.le_of_lt_succ (high.trans_le limit))⟩, live⟩
        · rintro ⟨⟨⟨low, high⟩, -⟩, live⟩
          exact ⟨live, low, high⟩
      rw [stop, ← same]
      exact grows
    · -- Something was taken, and what was taken lies before the stop.
      rw [stop] at found
      obtain ⟨low, high⟩ := bound token found
      have nonempty : taken ≠ [] := by
        apply some_ open_
        rw [parts]
        exact List.append_ne_nil_of_right_ne_nil _ (by rintro rfl; exact absurd found (by simp))
      obtain ⟨first, others, rfl⟩ := List.exists_cons_of_ne_nil nonempty
      have member : first ∈ state.recordsByToken.tokensIn position segmentEnd := parts ▸ by simp
      exact ((state.recordsByToken.mem_tokens_in _ _ _).mp member).1.trans_lt
        (ordered.2.2 first (by simp) token (List.mem_of_head? found))
  · rw [if_neg own]
    refine ⟨?_, fun _ found => absurd found (by simp), fun _ _ found => absurd found (by simp)⟩
    -- The segment is another node's, and nothing of it is listed.
    have none_ : state.listed nodeId unixMillis position (segmentEnd + 1) = [] := by
      rw [listed, List.map_eq_nil_iff, List.filter_eq_nil_iff]
      intro entry member inside
      simp only [Bool.and_eq_true, decide_eq_true_eq] at inside
      have owned := segment_owner segment inside.1.1.1 (Nat.le_of_lt_succ inside.1.1.2)
      exact own (Option.some.inj (owned.symm.trans inside.1.2))
    exact none_.symm ▸ Grows.refl _ _

/-- From `position` on, the page lists what the node owns up to where it stops. -/
structure Covers (position : Token) (before after : KeyPage) : Prop where
  keys : after.keys = before.keys ++ shown limits.countOnly
    (state.listed nodeId unixMillis position after.stop)
  count : after.count = before.count + (state.listed nodeId unixMillis position after.stop).length
  reaches : position ≤ after.stop
  within : ∀ token, after.next = some token → token ≤ tokenMax
  stretch : limits.oneStretch = true → ∀ token, position ≤ token → token < after.stop →
    state.topology.ownerId token = some nodeId

theorem listed_empty (position : Token) : state.listed nodeId unixMillis position position = [] := by
  rw [listed, List.map_eq_nil_iff, List.filter_eq_nil_iff]
  intro entry _ inside
  simp only [Bool.and_eq_true, decide_eq_true_eq] at inside
  exact absurd (inside.1.1.2.trans_le inside.1.1.1) (lt_irrefl _)

theorem covers_stop {page after : KeyPage} {position stop : Token}
    (grows : Grows limits.countOnly page after (state.listed nodeId unixMillis position stop))
    (reaches : position ≤ stop)
    (within : stop ≤ tokenMax) (stretch : limits.oneStretch = true → ∀ token, position ≤ token →
      token < stop →
      state.topology.ownerId token = some nodeId) :
    state.Covers nodeId unixMillis limits position page { after with next := some stop } where
  keys := grows.keys
  count := grows.count
  reaches := reaches
  within _ found := Option.some.inj found ▸ within
  stretch := stretch

structure RingSized (topology : TopologySnapshot) : Prop where
  assigned : topology.assignments ≠ []
  tokens : ∀ assignment ∈ topology.assignments, assignment.token ≤ tokenMax

theorem segment_end_bounded {topology : TopologySnapshot} (sized : RingSized topology)
    {position segmentEnd : Token}
    {owner : String} (segment : topology.segmentAt position = some (segmentEnd, owner)) :
    segmentEnd ≤ tokenMax := by
  rcases segment_found segment with ⟨assignment, found, rfl, -⟩ | ⟨-, last, -⟩
  · exact sized.tokens assignment (List.mem_of_find?_eq_some found)
  · exact last.le

theorem segment_reaches {topology : TopologySnapshot} {position segmentEnd : Token} {owner : String}
    (segment : topology.segmentAt position = some (segmentEnd, owner)) (inside : position ≤ tokenMax) :
    position ≤ segmentEnd := by
  rcases segment_end_le segment with low | last
  · exact low
  · exact last ▸ inside

theorem segment_owned {topology : TopologySnapshot} {oneStretch : Bool}
    {position segmentEnd : Token} {owner : String}
    (segment : topology.segmentAt position = some (segmentEnd, owner))
    (passed : ¬(owner ≠ nodeId ∧ oneStretch = true)) (stretch : oneStretch = true) {token : Token}
    (low : position ≤ token) (high : token < segmentEnd + 1) :
    topology.ownerId token = some nodeId := by
  have own : owner = nodeId := by
    by_contra other
    exact passed ⟨other, stretch⟩
  exact own ▸ segment_owner segment low (Nat.le_of_lt_succ high)

theorem page_from_covers (sized : RingSized state.topology) (paging : Paging) (position : Token)
    (inside : position ≤ tokenMax) (fresh : paging.page.next = none) :
    state.Covers nodeId unixMillis limits position paging.page
      (state.pageFrom nodeId unixMillis limits paging position) := by
  fun_induction pageFrom state nodeId unixMillis limits paging position with
  | case1 paging position empty =>
      -- A ring with assignments has a segment at every token.
      unfold TopologySnapshot.segmentAt at empty
      split at empty
      · exact absurd empty (by simp)
      · exact absurd (List.head?_eq_none_iff.mp (Option.map_eq_none_iff.mp empty)) sized.assigned
  | case2 paging position segmentEnd owner segment _ other =>
      have still := Grows.refl limits.countOnly paging.page
      rw [← state.listed_empty nodeId unixMillis position] at still
      exact state.covers_stop nodeId unixMillis limits still le_rfl inside
        fun _ token low high => absurd (high.trans_le low) (lt_irrefl _)
  | case3 paging position segmentEnd owner segment counted passed taken token taking =>
      have takes := state.take_segment_takes nodeId unixMillis limits counted segment
      rw [taking] at takes
      obtain ⟨low, high⟩ := takes.stops token rfl
      exact state.covers_stop nodeId unixMillis limits takes.grows low
        (high.trans (segment_end_bounded sized segment))
        fun stretch other from_ below =>
          segment_owned nodeId segment passed stretch from_ (below.trans_le (high.trans (Nat.le_succ _)))
  | case4 paging position segmentEnd owner segment counted passed taken taking last =>
      have takes := state.take_segment_takes nodeId unixMillis limits counted segment
      rw [taking] at takes
      have whole : segmentEnd = tokenMax := le_antisymm (segment_end_bounded sized segment) last
      have end_ : taken.page.stop = segmentEnd + 1 := by
        rw [KeyPage.stop, takes.grows.next, whole]
        exact congrArg (Option.getD · (tokenMax + 1)) fresh
      have unfinished : taken.page.next = none := takes.grows.next.trans fresh
      refine ⟨end_ ▸ takes.grows.keys, end_ ▸ takes.grows.count, ?_, ?_, ?_⟩
      · rw [end_]
        exact (segment_reaches segment inside).trans (Nat.le_succ _)
      · exact fun token found => absurd (unfinished.symm.trans found) (by simp)
      · rw [end_]
        exact fun stretch token => segment_owned nodeId segment passed stretch
  | case5 paging position segmentEnd owner segment counted passed taken taking more _ =>
      have takes := state.take_segment_takes nodeId unixMillis limits counted segment
      rw [taking] at takes
      exact state.covers_stop nodeId unixMillis limits takes.grows
        ((segment_reaches segment inside).trans (Nat.le_succ _)) (not_le.mp more)
        fun stretch token => segment_owned nodeId segment passed stretch
  | case6 paging position segmentEnd owner segment counted passed taken taking more _ ih =>
      have takes := state.take_segment_takes nodeId unixMillis limits counted segment
      rw [taking] at takes
      have low := segment_reaches segment inside
      have rest := ih (not_le.mp more) (takes.grows.next.trans fresh)
      have joined := state.listed_append nodeId unixMillis (low.trans (Nat.le_succ _)) rest.reaches
      have before : taken.page.keys = paging.page.keys ++
          shown limits.countOnly (state.listed nodeId unixMillis position (segmentEnd + 1)) :=
            takes.grows.keys
      have counted : taken.page.count = paging.page.count +
          (state.listed nodeId unixMillis position (segmentEnd + 1)).length := takes.grows.count
      refine ⟨?_, ?_, low.trans ((Nat.le_succ _).trans rest.reaches), rest.within,
        fun stretch token from_ below => ?_⟩
      · rw [rest.keys, before, List.append_assoc, shown_append, joined]
      · rw [rest.count, counted, Nat.add_assoc, ← List.length_append, joined]
      · by_cases here : token < segmentEnd + 1
        · exact segment_owned nodeId segment passed stretch from_ here
        · exact rest.stretch stretch token (not_lt.mp here) below

theorem page_from_moves (sized : RingSized state.topology) (paging : Paging) {position : Token}
    (inside : position ≤ tokenMax) (fresh : paging.page.next = none)
    (open_ : limits.reached { paging with examined := paging.examined + 1 } = false)
    (own : limits.oneStretch = true → state.topology.ownerId position = some nodeId) :
    position < (state.pageFrom nodeId unixMillis limits paging position).stop := by
  fun_cases pageFrom state nodeId unixMillis limits paging position with
  | case1 =>
      rw [KeyPage.stop, fresh]
      exact Nat.lt_succ_of_le inside
  | case2 segmentEnd owner segment _ other =>
      have owned := segment_owner segment le_rfl (segment_reaches segment inside)
      exact absurd (Option.some.inj (owned.symm.trans (own other.2))) other.1
  | case3 segmentEnd owner segment counted passed taken token taking =>
      have takes := state.take_segment_takes nodeId unixMillis limits counted segment
      rw [taking] at takes
      exact takes.moves open_ token rfl
  | case4 segmentEnd owner segment counted passed taken taking last =>
      have takes := state.take_segment_takes nodeId unixMillis limits counted segment
      rw [taking] at takes
      have unfinished : taken.page.next = none := takes.grows.next.trans fresh
      rw [KeyPage.stop, unfinished]
      exact Nat.lt_succ_of_le inside
  | case5 segmentEnd owner segment counted passed taken taking more _ =>
      exact Nat.lt_succ_of_le (segment_reaches segment inside)
  | case6 segmentEnd owner segment counted passed taken taking more _ =>
      have takes := state.take_segment_takes nodeId unixMillis limits counted segment
      rw [taking] at takes
      have rest := state.page_from_covers nodeId unixMillis limits sized taken (segmentEnd + 1)
        (not_le.mp more)
        (takes.grows.next.trans fresh)
      exact (Nat.lt_succ_of_le (segment_reaches segment inside)).trans_le rest.reaches

end NodeState

def maxExaminedPerPage : Nat := 10000

def maxKeysPerPage : Nat := 10000

def maxKeyBytesPerPage : Nat := 4 * 1024 * 1024

structure ListKeysRequest where
  topologyEpoch : Nat
  startToken : Token := 0
  maxKeys : Nat
  maxBytes : Nat
  countOnly : Bool := false
  oneStretch : Bool := false
  deriving DecidableEq

structure ListKeysResponse where
  keys : List Bytes := []
  count : Nat := 0
  done : Bool := false
  nextToken : Token := 0
  currentEpoch : Nat
  error : Option OperationError := none
  deriving DecidableEq

def ListKeysRequest.limits (request : ListKeysRequest) : PageLimits where
  maxKeys := max 1 (min request.maxKeys maxKeysPerPage)
  maxBytes := max 1 (min request.maxBytes maxKeyBytesPerPage)
  maxExamined := maxExaminedPerPage
  countOnly := request.countOnly
  oneStretch := request.oneStretch

/-- Why the node does not answer for the request, if it does not. A one-stretch
page needs the ownership of its first token only; a page of a walk needs the
walk's own epoch. -/
def refuseListing (config : NodeConfig) (state : NodeState) (now : Instant) (request : ListKeysRequest) :
    Except Status (Option OperationError) :=
  if request.oneStretch then ownerError config state request.startToken now
  else if state.topology.epoch < request.topologyEpoch then
    .ok (some (temporarilyUnavailable state.topology.epoch
      "this node has not installed the walk's topology yet"))
  else if request.topologyEpoch < state.topology.epoch then
    .ok (some { operationError .moved "the topology changed during the key walk" true with
      currentEpoch := state.topology.epoch })
  else if state.topology.assignments.any (·.nodeId = config.nodeId) then .ok (leaseError state now)
  else .ok none

def listingOf (epoch : Nat) (page : KeyPage) : ListKeysResponse where
  keys := page.keys
  count := page.count
  done := page.next.isNone
  nextToken := page.next.getD 0
  currentEpoch := epoch

/-- `list_keys` under the state's read lock. -/
def answerListing (config : NodeConfig) (state : NodeState) (now : Instant) (unixMillis : Nat)
    (request : ListKeysRequest) :
    Except Status ListKeysResponse := do
  match ← refuseListing config state now request with
  | some error => return { currentEpoch := state.topology.epoch, error := some error }
  | none =>
      return listingOf state.topology.epoch
        (state.ownedKeysPage config.nodeId unixMillis request.limits request.startToken)

end Hashring
