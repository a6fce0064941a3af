import Mathlib.Data.List.Count
import Webvirtd.Lib.Shared
import Webvirtd.Virt.ConnectionPool

/-!
# Virt.Ownership — when the handles of libvirt connections are closed

The `connect_ptr` of a pool entry is a shared pointer whose deleter calls `virConnectClose`.  Every libvirt call on an
entry takes a copy of it by value, which lives until the call returns or throws; `get` drops the pointer of the entry
that it replaces.  Calls of any threads are in flight while entries are replaced.

`connection_closed`: a handle has been closed exactly if it has been opened, its entry has been given another one or
none, and no call on it is in flight, and it has been closed once.
-/

namespace Webvirtd.Virt

open Lib

structure Owned where
  pool : PoolState := PoolState.init
  nextHandle : Handle := 0
  shared : Shared Handle := .empty
  /-- The handles that calls in flight hold a copy of. -/
  inFlight : List Handle := []

inductive OwnAction
  /-- `pool.get(user)`; `errno` says whether `virConnectOpen` would fail, and how. -/
  | get (user : User) (errno : Option ℤ)
  /-- A close callback fires. -/
  | close (user : User) (n : ℕ)
  /-- A libvirt call on the entry of `user` begins. -/
  | call (user : User)
  /-- A call on `h` returns or throws. -/
  | finish (h : Handle)

namespace Owned

variable (strerror : ℤ → String) (s : Owned)

/-- What `virConnectOpen` returns. -/
def opening (errno : Option ℤ) : OpenResult :=
  match errno with
  | some e => .null e
  | none => .handle s.nextHandle

/-- The pointers that `connect` makes: `conn_`, and a copy of it for each of the two calls that set callbacks. -/
def connected (p : Shared Handle) : OpenResult → Shared Handle
  | .null _ => p
  | .handle h => ((((p.make h).copy h).drop h).copy h).drop h

/-- `iter->second = virt::connection(); iter->second.connect(user)`, and the same for a new entry. -/
def replaced (old : Option Handle) (r : OpenResult) : Shared Handle := connected (s.shared.dropOpt old) r

def get (user : User) (errno : Option ℤ) : Owned :=
  { s with
    pool := (s.pool.get strerror user (s.opening errno)).2
    nextHandle := s.nextHandle + 1
    shared := match s.pool.connections user with
      | none => s.replaced none (s.opening errno)
      | some c => if c.closed then s.replaced c.conn (s.opening errno) else s.shared }

end Owned

def ownMachine (strerror : ℤ → String) : Machine Owned OwnAction where
  init := {}
  step s
    | .get user errno => some (s.get strerror user errno)
    | .close user n => (s.pool.close user n).map fun pool => { s with pool := pool }
    | .call user => match (s.pool.entry user).conn with
      | none => some s
      | some h => some { s with shared := s.shared.copy h, inFlight := h :: s.inFlight }
    | .finish h =>
      if h ∈ s.inFlight then some { s with shared := s.shared.drop h, inFlight := s.inFlight.erase h } else none

/-- Each pointer there is belongs to an entry or to a call in flight. -/
structure OwnInv (s : Owned) : Prop where
  pool : PoolInv s.pool
  apart : HandlesApart s.pool
  lt : ∀ u h, h ∈ s.pool.handles u → h < s.nextHandle
  shared : s.shared.Ok
  made : ∀ h, h ∈ s.shared.made ↔ ∃ u, h ∈ s.pool.handles u
  held : ∀ u h, (s.pool.entry u).conn = some h → s.shared.useCount h = s.inFlight.count h + 1
  other : ∀ h, (∀ u, (s.pool.entry u).conn ≠ some h) → s.shared.useCount h = s.inFlight.count h

section

variable {strerror : ℤ → String} {s t : Owned}

theorem ownInv_init : OwnInv {} where
  pool := poolInv_init
  apart := handlesApart_init
  lt _ _ h := absurd h List.not_mem_nil
  shared := Shared.ok_empty
  made h := by simp [Shared.empty, PoolState.init, PoolState.handles]
  held u h hc := by cases hc
  other h _ := rfl

/-- The handle of an entry is one of its user's. -/
theorem mem_handles_of_conn {p : PoolState} (hp : PoolInv p) {u : User} {h : Handle} (hc : (p.entry u).conn = some h) :
    h ∈ p.handles u := by
  unfold PoolState.entry at hc
  cases hu : p.connections u with
  | none => rw [hu] at hc; cases hc
  | some c =>
    rw [hu] at hc
    exact mem_handles_of_entry hp hu hc

theorem conn_inj (hs : OwnInv s) {u v : User} {h : Handle} (hu : (s.pool.entry u).conn = some h)
    (hv : (s.pool.entry v).conn = some h) : u = v :=
  hs.apart.apart u v h (mem_handles_of_conn hs.pool hu) (mem_handles_of_conn hs.pool hv)

/-- Whether there is a pointer to `h`. -/
theorem useCount_pos_iff (hs : OwnInv s) (h : Handle) :
    0 < s.shared.useCount h ↔ (∃ u, (s.pool.entry u).conn = some h) ∨ h ∈ s.inFlight := by
  by_cases hu : ∃ u, (s.pool.entry u).conn = some h
  · obtain ⟨u, hc⟩ := hu
    have hcount := hs.held u h hc
    exact iff_of_true (by omega) (.inl ⟨u, hc⟩)
  · have hno : ∀ u, (s.pool.entry u).conn ≠ some h := fun u hc => hu ⟨u, hc⟩
    rw [hs.other h hno, List.count_pos_iff]
    simp [hu]

/-! ## Steps -/

theorem ownInv_call (hs : OwnInv s) {u : User} {h : Handle} (hc : (s.pool.entry u).conn = some h) :
    OwnInv { s with shared := s.shared.copy h, inFlight := h :: s.inFlight } where
  pool := hs.pool
  apart := hs.apart
  lt := hs.lt
  shared := hs.shared.copy ((useCount_pos_iff hs h).mpr (.inl ⟨u, hc⟩))
  made := hs.made
  held v g hg := by
    have hcount := hs.held v g hg
    by_cases hgh : g = h
    · subst hgh
      simp [Shared.copy, hcount]
    · simp [Shared.copy, hcount, hgh, Ne.symm hgh]
  other g hg := by
    have hcount := hs.other g hg
    by_cases hgh : g = h
    · exact absurd (hgh ▸ hc) (hg u)
    · simp [Shared.copy, hcount, hgh, Ne.symm hgh]

theorem ownInv_finish (hs : OwnInv s) {h : Handle} (hm : h ∈ s.inFlight) :
    OwnInv { s with shared := s.shared.drop h, inFlight := s.inFlight.erase h } where
  pool := hs.pool
  apart := hs.apart
  lt := hs.lt
  shared := hs.shared.drop ((useCount_pos_iff hs h).mpr (.inr hm))
  made := hs.made
  held v g hg := by
    have hcount := hs.held v g hg
    have hpos : 0 < s.inFlight.count h := List.count_pos_iff.mpr hm
    by_cases hgh : g = h
    · subst hgh
      simp only [Shared.drop, Function.update_self, List.count_erase_self, hcount]
      omega
    · simp [Shared.drop, hcount, hgh]
  other g hg := by
    have hcount := hs.other g hg
    by_cases hgh : g = h
    · subst hgh
      simp [Shared.drop, hcount]
    · simp [Shared.drop, hcount, hgh]

/-- A close callback leaves the pointers where they are. -/
theorem ownInv_close (hs : OwnInv s) {u : User} {n : ℕ} {pool : PoolState} (h : s.pool.close u n = some pool) :
    OwnInv { s with pool := pool } := by
  have hconn : ∀ v, (pool.entry v).conn = (s.pool.entry v).conn := by
    intro v
    obtain ⟨hd, rest, ho, rfl⟩ := close_cases hs.pool h
    by_cases hv : v = u
    · subst hv
      have he := hs.pool.entry v
      rw [ho] at he
      simp [PoolState.entry, he, entryOf]
    · simp [PoolState.entry, hv]
  refine ⟨poolInv_close hs.pool h, handlesApart_close hs.pool hs.apart h, fun v g hg => ?_, hs.shared, fun g => ?_,
    fun v g hg => ?_, fun g hg => ?_⟩
  · rw [close_handles hs.pool h] at hg
    exact hs.lt v g hg
  · rw [hs.made g]
    exact exists_congr fun v => by rw [close_handles hs.pool h]
  · exact hs.held v g (hconn v ▸ hg)
  · exact hs.other g fun v => hconn v ▸ hg v

/-- The calls that set the callbacks leave `conn_` as the only pointer. -/
theorem connected_handle (p : Shared Handle) (h : Handle) : Owned.connected p (.handle h) = p.make h := by
  have hlive : 0 < (p.make h).useCount h := by simp [Shared.make]
  show ((((p.make h).copy h).drop h).copy h).drop h = p.make h
  rw [Shared.drop_copy hlive, Shared.drop_copy hlive]

/-- The pointers when an entry is replaced. -/
theorem replaced_spec (hs : OwnInv s) {u : User} (r : OpenResult) (hr : ∀ h, r = .handle h → h = s.nextHandle) :
    (s.replaced (s.pool.entry u).conn r).Ok ∧
      (∀ h, h ∈ (s.replaced (s.pool.entry u).conn r).made ↔ h ∈ s.shared.made ∨ r = .handle h) ∧
      ∀ h, (s.replaced (s.pool.entry u).conn r).useCount h =
        if r = .handle h then 1 else
          if (s.pool.entry u).conn = some h then s.shared.useCount h - 1 else s.shared.useCount h := by
  have hdrop : (s.shared.dropOpt (s.pool.entry u).conn).Ok ∧
      (s.shared.dropOpt (s.pool.entry u).conn).made = s.shared.made ∧
      ∀ h, (s.shared.dropOpt (s.pool.entry u).conn).useCount h =
        if (s.pool.entry u).conn = some h then s.shared.useCount h - 1 else s.shared.useCount h := by
    cases hc : (s.pool.entry u).conn with
    | none => exact ⟨hs.shared, rfl, fun h => by simp [Shared.dropOpt]⟩
    | some g =>
      refine ⟨hs.shared.drop ((useCount_pos_iff hs g).mpr (.inl ⟨u, hc⟩)), rfl, fun h => ?_⟩
      by_cases hh : h = g
      · subst hh
        simp [Shared.dropOpt, Shared.drop]
      · simp [Shared.dropOpt, Shared.drop, hh, Ne.symm hh]
  obtain ⟨hok, hmade, hcount⟩ := hdrop
  cases r with
  | null errno => exact ⟨hok, fun h => by simp [Owned.replaced, Owned.connected, hmade], fun h => by
      simp [Owned.replaced, Owned.connected, hcount]⟩
  | handle g =>
    have hnew : g ∉ (s.shared.dropOpt (s.pool.entry u).conn).made := by
      intro hm
      rw [hmade, hs.made] at hm
      obtain ⟨v, hv⟩ := hm
      have hlt := hs.lt v g hv
      rw [hr g rfl] at hlt
      exact absurd hlt (Nat.lt_irrefl _)
    unfold Owned.replaced
    rw [connected_handle]
    refine ⟨hok.make hnew, fun h => ?_, fun h => ?_⟩
    · by_cases hh : h = g
      · subst hh
        simp [Shared.make]
      · simp [Shared.make, hmade, hh, Ne.symm hh]
    · by_cases hh : h = g
      · subst hh
        simp [Shared.make]
      · simp [Shared.make, hcount, hh, Ne.symm hh]

/-- `get` replaces the pointers exactly if it opens. -/
theorem get_shared (strerror : ℤ → String) (hs : OwnInv s) (u : User) (errno : Option ℤ) :
    (s.get strerror u errno).shared =
      if NeedsOpen (s.pool.opens u) = true then s.replaced (s.pool.entry u).conn (s.opening errno) else s.shared := by
  have he := hs.pool.entry u
  cases hc : s.pool.connections u with
  | none =>
    have hopens : s.pool.opens u = [] := by
      rw [hc] at he
      match hos : s.pool.opens u with
      | [] => rfl
      | ⟨_, .null _, _⟩ :: _ => rw [hos] at he; cases he
      | ⟨_, .handle _, _⟩ :: _ => rw [hos] at he; cases he
    simp [Owned.get, PoolState.entry, hc, hopens, NeedsOpen]
  | some c =>
    rw [hc] at he
    simp [Owned.get, PoolState.entry, hc, ← closed_of_entryOf he.symm]

theorem entry_get_of_needsOpen (hp : PoolInv s.pool) {u : User} (hn : NeedsOpen (s.pool.opens u) = true)
    (r : OpenResult) (v : User) :
    ((s.pool.get strerror u r).2.entry v).conn = if v = u then r.handle? else (s.pool.entry v).conn := by
  have hconn : (s.pool.get strerror u r).2.connections =
      Function.update s.pool.connections u (entryOf u ({ uri := uri u, result := r } :: s.pool.opens u)) := by
    rw [get_of_needsOpen hp hn, reconnect_connections]
  unfold PoolState.entry
  rw [hconn]
  by_cases hv : v = u
  · subst hv
    cases r with
    | null errno => simp [entryOf, OpenResult.handle?]
    | handle h => simp [entryOf, OpenResult.handle?]
  · simp [hv]

theorem opening_handle {errno : Option ℤ} {h : Handle} (ho : s.opening errno = .handle h) : h = s.nextHandle := by
  cases errno with
  | none => exact (OpenResult.handle.inj ho).symm
  | some e => cases ho

theorem handle?_eq_some_iff {r : OpenResult} {h : Handle} : r.handle? = some h ↔ r = .handle h := by
  cases r with
  | null e => simp [OpenResult.handle?]
  | handle g => simp [OpenResult.handle?]

/-- A handle that is being opened is nobody's yet. -/
theorem opening_not_mem (hs : OwnInv s) {errno : Option ℤ} {h : Handle} (ho : s.opening errno = .handle h) (u : User) :
    h ∉ s.pool.handles u := by
  intro hm
  have hlt := hs.lt u h hm
  rw [opening_handle ho] at hlt
  exact absurd hlt (Nat.lt_irrefl _)

/-- No pointer to it has been made. -/
theorem opening_unused (hs : OwnInv s) {errno : Option ℤ} {h : Handle} (ho : s.opening errno = .handle h) :
    s.inFlight.count h = 0 ∧ ∀ u, (s.pool.entry u).conn ≠ some h := by
  have hno : h ∉ s.shared.made := by
    rw [hs.made]
    rintro ⟨u, hu⟩
    exact opening_not_mem hs ho u hu
  have hzero : ¬ 0 < s.shared.useCount h := fun hpos => hno (hs.shared.live h hpos)
  rw [useCount_pos_iff hs] at hzero
  exact ⟨List.count_eq_zero.mpr fun hm => hzero (.inr hm), fun u hu => hzero (.inl ⟨u, hu⟩)⟩

theorem mem_handles_get (hs : OwnInv s) (u : User) (errno : Option ℤ) (v : User) (h : Handle) :
    h ∈ (s.get strerror u errno).pool.handles v ↔
      h ∈ s.pool.handles v ∨ v = u ∧ NeedsOpen (s.pool.opens u) ∧ s.opening errno = .handle h := by
  have hhandles : (s.get strerror u errno).pool.handles v =
      if v = u ∧ NeedsOpen (s.pool.opens u) then (s.opening errno).handle?.toList ++ s.pool.handles v
      else s.pool.handles v := get_handles hs.pool u _ v
  rw [hhandles]
  by_cases hv : v = u ∧ NeedsOpen (s.pool.opens u)
  · rw [if_pos hv, List.mem_append, Option.mem_toList, handle?_eq_some_iff]
    obtain ⟨hvu, hn⟩ := hv
    simp only [hvu, hn, true_and]
    exact or_comm
  · rw [if_neg hv]
    exact (or_iff_left fun hr => hv ⟨hr.1, hr.2.1⟩).symm

/-- An entry is in use that needs no new connection: nothing changes hands. -/
theorem ownInv_get_of_open (hs : OwnInv s) {u : User} {errno : Option ℤ} {t : Owned}
    (hn : NeedsOpen (s.pool.opens u) = false) (ht : s.get strerror u errno = t) (hpool : PoolInv t.pool)
    (hapart : HandlesApart t.pool) (hlt : ∀ v h, h ∈ t.pool.handles v → h < t.nextHandle) : OwnInv t := by
  obtain ⟨hd, rest, -, hg⟩ := get_of_open strerror hs.pool hn (s.opening errno)
  have hsame : t.pool = s.pool := ht ▸ congrArg Prod.snd hg
  have hshared : t.shared = s.shared := by
    have h := get_shared strerror hs u errno
    rw [hn, if_neg Bool.false_ne_true] at h
    exact ht ▸ h
  have hflight : t.inFlight = s.inFlight := ht ▸ rfl
  refine ⟨hpool, hapart, hlt, hshared ▸ hs.shared, fun h => ?_, fun v h hc => ?_, fun h hc => ?_⟩
  · rw [hshared, hsame]
    exact hs.made h
  · rw [hsame] at hc
    rw [hshared, hflight]
    exact hs.held v h hc
  · rw [hsame] at hc
    rw [hshared, hflight]
    exact hs.other h hc

/-- The entry is replaced: its pointer is dropped, and the one pointer to the new handle is the entry's. -/
theorem ownInv_get_of_needsOpen (hs : OwnInv s) {u : User} {errno : Option ℤ}
    (hn : NeedsOpen (s.pool.opens u) = true) (hpool : PoolInv (s.get strerror u errno).pool)
    (hapart : HandlesApart (s.get strerror u errno).pool)
    (hlt : ∀ v h, h ∈ (s.get strerror u errno).pool.handles v → h < s.nextHandle + 1) :
    OwnInv (s.get strerror u errno) := by
  have hshared := get_shared strerror hs u errno
  rw [hn, if_pos rfl] at hshared
  obtain ⟨hok, hmade, hcount⟩ := replaced_spec (u := u) hs (s.opening errno) fun h ho => opening_handle ho
  have hentry : ∀ v, ((s.get strerror u errno).pool.entry v).conn =
      if v = u then (s.opening errno).handle? else (s.pool.entry v).conn :=
    entry_get_of_needsOpen hs.pool hn _
  refine ⟨hpool, hapart, hlt, hshared ▸ hok, fun h => ?_, fun v h hc => ?_, fun h hc => ?_⟩
  · rw [hshared, hmade, hs.made]
    simp only [mem_handles_get hs u errno, hn, true_and, exists_or, exists_eq_left]
  · rw [hshared, hcount]
    rw [hentry] at hc
    show _ = s.inFlight.count h + 1
    by_cases hvu : v = u
    · rw [if_pos hvu] at hc
      have ho := handle?_eq_some_iff.mp hc
      rw [if_pos ho, (opening_unused hs ho).1]
    · rw [if_neg hvu] at hc
      have hne : s.opening errno ≠ .handle h := fun ho => (opening_unused hs ho).2 v hc
      have hu : (s.pool.entry u).conn ≠ some h := fun hu => hvu (conn_inj hs hc hu)
      rw [if_neg hne, if_neg hu]
      exact hs.held v h hc
  · rw [hshared, hcount]
    show _ = s.inFlight.count h
    have hne : s.opening errno ≠ .handle h := by
      intro ho
      have hcu := hc u
      rw [hentry, if_pos rfl] at hcu
      exact hcu (handle?_eq_some_iff.mpr ho)
    rw [if_neg hne]
    by_cases hu : (s.pool.entry u).conn = some h
    · rw [if_pos hu, hs.held u h hu]
      omega
    · rw [if_neg hu]
      refine hs.other h fun v hv => ?_
      by_cases hvu : v = u
      · exact hu (hvu ▸ hv)
      · have hcv := hc v
        rw [hentry, if_neg hvu] at hcv
        exact hcv hv

theorem ownInv_get (hs : OwnInv s) (u : User) (errno : Option ℤ) : OwnInv (s.get strerror u errno) := by
  have hfresh : Fresh s.pool (.get u (s.opening errno)) := by
    cases ho : s.opening errno with
    | null e => trivial
    | handle h => exact fun _ v => opening_not_mem hs ho v
  have hlt : ∀ v h, h ∈ (s.get strerror u errno).pool.handles v → h < s.nextHandle + 1 := by
    intro v h hm
    rcases (mem_handles_get hs u errno v h).mp hm with hm | ⟨-, -, ho⟩
    · exact Nat.lt_succ_of_lt (hs.lt v h hm)
    · rw [opening_handle ho]
      exact Nat.lt_succ_self _
  have hpool : PoolInv (s.get strerror u errno).pool := poolInv_get hs.pool u _
  have hapart : HandlesApart (s.get strerror u errno).pool := handlesApart_get hs.pool hs.apart hfresh
  cases hn : NeedsOpen (s.pool.opens u) with
  | false => exact ownInv_get_of_open hs hn rfl hpool hapart hlt
  | true => exact ownInv_get_of_needsOpen hs hn hpool hapart hlt

end

theorem ownInvariant (strerror : ℤ → String) : (ownMachine strerror).Invariant OwnInv where
  init := ownInv_init
  step s a t hs h := by
    cases a with
    | get u errno =>
      obtain rfl : s.get strerror u errno = t := by simpa [ownMachine] using h
      exact ownInv_get hs u errno
    | close u n =>
      obtain ⟨pool, hpool, rfl⟩ := Option.map_eq_some_iff.mp h
      exact ownInv_close hs hpool
    | call u =>
      cases hc : (s.pool.entry u).conn with
      | none =>
        obtain rfl : s = t := by simpa [ownMachine, hc] using h
        exact hs
      | some hd =>
        obtain rfl : { s with shared := s.shared.copy hd, inFlight := hd :: s.inFlight } = t := by
          simpa [ownMachine, hc] using h
        exact ownInv_call hs hc
    | finish hd =>
      by_cases hm : hd ∈ s.inFlight
      · obtain rfl : { s with shared := s.shared.drop hd, inFlight := s.inFlight.erase hd } = t := by
          simpa [ownMachine, hm] using h
        exact ownInv_finish hs hm
      · simp [ownMachine, hm] at h

/-- **Ownership.**  Whatever `get`s, close callbacks and calls have been interleaved: a handle is closed at most once,
and it is closed by now exactly if it was opened, no entry holds it and no call on it is in flight. -/
theorem connection_closed (strerror : ℤ → String) {as : List OwnAction} {s : Owned}
    (hs : (ownMachine strerror).exec {} as = some s) :
    s.shared.freed.Nodup ∧ ∀ h, h ∈ s.shared.freed ↔
      (∃ u, h ∈ s.pool.handles u) ∧ (∀ u, (s.pool.entry u).conn ≠ some h) ∧ h ∉ s.inFlight := by
  have hinv : OwnInv s := (ownInvariant strerror).exec ownInv_init hs
  refine ⟨hinv.shared.nodup, fun h => ?_⟩
  have hpos := useCount_pos_iff hinv h
  have hzero : s.shared.useCount h = 0 ↔ ¬ 0 < s.shared.useCount h := by omega
  rw [hinv.shared.freed, hinv.made, hzero, hpos, not_or, not_exists]

/-- The connection of `ann` goes while a call on it is in flight, and is replaced before the call returns. -/
theorem connection_closed_replaced : ∃ s, (ownMachine fun _ => "").exec {}
    [.get "ann" none, .call "ann", .close "ann" 0, .get "ann" none, .finish 0] = some s ∧
      (0 ∈ s.shared.freed ↔
        (∃ u, 0 ∈ s.pool.handles u) ∧ (∀ u, (s.pool.entry u).conn ≠ some 0) ∧ 0 ∉ s.inFlight) := by
  obtain ⟨s, hs⟩ : ∃ s, (ownMachine fun _ => "").exec {}
      [.get "ann" none, .call "ann", .close "ann" 0, .get "ann" none, .finish 0] = some s := ⟨_, rfl⟩
  exact ⟨s, hs, (connection_closed (fun _ => "") hs).2 0⟩

end Webvirtd.Virt
