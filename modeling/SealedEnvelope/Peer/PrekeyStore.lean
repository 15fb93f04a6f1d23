import SealedEnvelope.Call.Error
import SealedEnvelope.Clock
import SealedEnvelope.Handshake.Bundle
import SealedEnvelope.Updating

/-!
# `SealedEnvelope.Peer.PrekeyStore`: prekeys that wait for their request

Each answer to an offer leaves a session in the store, under a random index. Taking it
removes it, so that a prekey opens one request at most. An entry older than the
lifetime counts as missing. When the store is full, the oldest entry makes room.
-/

set_option autoImplicit false

namespace SealedEnvelope

/-- How long prekeys are kept, and how many. -/
structure PrekeyLimits where
  lifetime : Milliseconds := 300000
  capacity : Nat := 10000
  deriving DecidableEq, Repr

/-- A session that waits for its request. -/
structure PrekeyEntry where
  index : String
  session : Session
  issuedAt : Milliseconds
  deriving DecidableEq, Repr

/-- Prekeys that wait for their request. -/
structure PrekeyStore where
  limits : PrekeyLimits
  entries : List PrekeyEntry := []
  deriving DecidableEq, Repr

namespace PrekeyStore

/-- The number of bytes of a prekey index. -/
def indexLength : Nat := 16

/-- Whether an entry can still be used at a time. -/
def isLive (limits : PrekeyLimits) (at_ : Milliseconds) (entry : PrekeyEntry) : Bool :=
  at_ - entry.issuedAt ≤ limits.lifetime

/-- The number of entries. -/
def size (store : PrekeyStore) : Nat := store.entries.length

/-- The store without the entries that can no longer be used. -/
def purge (at_ : Milliseconds) (store : PrekeyStore) : PrekeyStore :=
  { store with entries := store.entries.filter (isLive store.limits at_) }

/-- The entry that was issued first, of several the one that comes first. -/
def oldest? : List PrekeyEntry → Option PrekeyEntry
  | [] => none
  | entry :: rest =>
    match oldest? rest with
    | none => some entry
    | some other => if other.issuedAt < entry.issuedAt then some other else some entry

theorem oldest?_eq_none_iff {entries : List PrekeyEntry} : oldest? entries = none ↔ entries = [] := by
  cases entries with
  | nil => simp [oldest?]
  | cons entry rest =>
    simp only [oldest?, reduceCtorEq, iff_false]
    split
    · simp
    · split <;> simp

theorem mem_of_oldest? {entries : List PrekeyEntry} {entry : PrekeyEntry}
    (h : oldest? entries = some entry) : entry ∈ entries := by
  induction entries generalizing entry with
  | nil => simp [oldest?] at h
  | cons first rest ih =>
    simp only [oldest?] at h
    split at h
    · simp_all
    · next other hother =>
      split at h
      · cases h
        exact List.mem_cons_of_mem _ (ih hother)
      · cases h
        exact List.mem_cons_self

/-- The entries without the oldest ones, such that at most `count` are left. -/
def evictTo (count : Nat) (entries : List PrekeyEntry) : List PrekeyEntry :=
  if entries.length ≤ count then entries
  else
    match _h : oldest? entries with
    | none => entries
    | some entry => evictTo count (entries.erase entry)
termination_by entries.length
decreasing_by
  have hmem := mem_of_oldest? _h
  rw [List.length_erase_of_mem hmem]
  have := List.length_pos_of_mem hmem
  omega

/-- The store with one more entry. Entries that can no longer be used are dropped first,
then the oldest ones until there is room, and an entry of the same index is replaced. -/
def insert (store : PrekeyStore) (entry : PrekeyEntry) : PrekeyStore :=
  let live := (store.purge entry.issuedAt).entries
  -- Room is made even if an entry of the same index is about to be replaced.
  let kept := evictTo (max store.limits.capacity 1 - 1) live
  { store with entries := kept.filter (·.index ≠ entry.index) ++ [entry] }

/-- Answers an offer, with a fresh index and fresh keys, and keeps the session. -/
def issue (s : Suite) (at_ : Milliseconds) (offer : Offer) :
    Updating PrekeyStore (StateM Entropy) CallError Answer := do
  let raw ← Updating.lift (Drawing.bytes .random indexLength)
  let index := Hex.encode raw.val
  let bundle ← Updating.lift (Drawing.mapError .envelope Bundle.draw)
  let (answer, session) ← CallError.onEnvelope (bundle.respond s index offer)
  modify fun store => store.insert { index := index, session := session, issuedAt := at_ }
  return answer

/-- The entry under an index. -/
def find? (store : PrekeyStore) (index : String) : Option PrekeyEntry :=
  store.entries.find? (·.index == index)

/-- The store without the entry under an index. -/
def remove (store : PrekeyStore) (index : String) : PrekeyStore :=
  { store with entries := store.entries.filter (·.index ≠ index) }

/-- Takes the session under an index out of the store, if it can still be used. What
cannot be used is removed too. -/
def take (at_ : Milliseconds) (store : PrekeyStore) (index : String) :
    Except CallError Session × PrekeyStore :=
  match store.find? index with
  | none => (.error .prekeyNotFound, store)
  | some entry =>
    (if isLive store.limits at_ entry then .ok entry.session else .error .prekeyNotFound,
      store.remove index)

end PrekeyStore

end SealedEnvelope
