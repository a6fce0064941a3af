import Mathlib.Logic.Function.Basic
import Webvirtd.Exception
import Webvirtd.Lib.Machine

/-!
# Virt.ConnectionPool — `virt::connection`, its `connect`, and `connection_pool::get`

The pool maps a user to a `virt::connection`.  libvirt's side of it is the history of the
`virConnectOpen` calls made for each entry (`opens`, newest first): what the call returned and
whether the close callback registered on the handle has fired.  That callback writes `true` through
the pointer to the `closed_` flag of the entry, whatever the entry holds by then.

* `entryOf`: what an entry should be, as a function of its history.  Four cases: never opened, last
  open failed, open, closed since.
* `PoolInv`: the entries are what their histories say, and every handle that has been replaced was
  closed before (so a late callback can never close a newer handle).
* `poolInvariant`: every `get` and every close callback keeps it.
-/

namespace Webvirtd.Virt

open Lib

/-- A `virConnectPtr`. -/
abbrev Handle := ℕ

/-- Where libvirt of a user is reached. -/
def uri (user : User) : String :=
  let endpoint := if user = "root" then "/system" else "/session"
  "qemu+ssh://" ++ user ++ "@localhost" ++ endpoint

/-- What `virConnectOpen` returns; `null` comes with `errno`. -/
inductive OpenResult
  | handle (h : Handle)
  | null (errno : ℤ)
  deriving DecidableEq, Repr

def OpenResult.handle? : OpenResult → Option Handle
  | .handle h => some h
  | .null _ => none

/-- `virt::connection`; the defaults are those of a default constructed one. -/
structure Connection where
  conn : Option Handle := none
  errno : ℤ := 0
  closed : Bool := true
  user : User := ""
  deriving DecidableEq, Repr

/-- One `virConnectOpen`; `closed` tells whether its close callback has fired. -/
structure Opening where
  uri : String
  result : OpenResult
  closed : Bool := false
  deriving DecidableEq, Repr

structure PoolState where
  connections : User → Option Connection
  opens : User → List Opening

variable (strerror : ℤ → String)

/-- `virt::connection::connect` on `c`: the outcome, the connection it leaves and the calls of
`virConnectOpen` it made.  `r` is what such a call returns. -/
def Connection.connect (c : Connection) (user : User) (r : OpenResult) :
    Except Exn Unit × Connection × List Opening :=
  if c.conn.isSome then
    (.error ⟨.overflowError, "cannot connect more than once"⟩, c, [])
  else match r with
    | .null errno =>
      (.error ⟨.runtimeError, "error: " ++ strerror errno ++ "\n"⟩, { c with errno := errno },
        [{ uri := uri user, result := r }])
    | .handle h =>
      (.ok (), { c with conn := some h, user := user, closed := false },
        [{ uri := uri user, result := r }])

namespace PoolState

/-- No entries, nothing opened. -/
def init : PoolState := ⟨fun _ => none, fun _ => []⟩

/-- `connections_[user] = virt::connection(); connections_[user].connect(user)`. -/
def reconnect (s : PoolState) (user : User) (r : OpenResult) : Except Exn Connection × PoolState :=
  let (res, c, calls) := Connection.connect strerror {} user r
  let s' : PoolState :=
    { connections := Function.update s.connections user (some c)
      opens := Function.update s.opens user (calls ++ s.opens user) }
  match res with
  | .ok () => (.ok c, s')
  | .error e => (.error e, s')

/-- `connection_pool::get`. -/
def get (s : PoolState) (user : User) (r : OpenResult) : Except Exn Connection × PoolState :=
  match s.connections user with
  | none => s.reconnect strerror user r
  | some c => if c.closed then s.reconnect strerror user r else (.ok c, s)

/-- The close callback of the `n`-th newest opening for `user` fires, which it does at most once. -/
def close (s : PoolState) (user : User) (n : ℕ) : Option PoolState :=
  match (s.opens user)[n]? with
  | some ⟨uri, .handle h, false⟩ =>
    some
      { connections := Function.update s.connections user
          ((s.connections user).map fun c => { c with closed := true })
        opens := Function.update s.opens user ((s.opens user).set n ⟨uri, .handle h, true⟩) }
  | _ => none

end PoolState

inductive PoolAction
  | get (user : User) (r : OpenResult)
  | close (user : User) (n : ℕ)

/-- All interleavings of `get` and of close callbacks. -/
def poolMachine : Machine PoolState PoolAction where
  init := PoolState.init
  step s
    | .get user r => some (s.get strerror user r).2
    | .close user n => s.close user n

/-! ## The history of an entry -/

/-- The entry that a history leaves behind. -/
def entryOf (user : User) : List Opening → Option Connection
  | [] => none
  | ⟨_, .null errno, _⟩ :: _ => some { errno := errno }
  | ⟨_, .handle h, closed⟩ :: _ => some { conn := some h, closed := closed, user := user }

/-- The entry has to be opened: it is absent, its last open failed, or its handle was closed. -/
def NeedsOpen : List Opening → Bool
  | [] => true
  | ⟨_, .null _, _⟩ :: _ => true
  | ⟨_, .handle _, closed⟩ :: _ => closed

structure PoolInv (s : PoolState) : Prop where
  entry : ∀ u, s.connections u = entryOf u (s.opens u)
  uri : ∀ u, ∀ o ∈ s.opens u, o.uri = Virt.uri u
  stale : ∀ u, ∀ o ∈ (s.opens u).tail, ∀ h, o.result = .handle h → o.closed = true

/-- What a reference to the entry refers to. -/
def PoolState.entry (s : PoolState) (user : User) : Connection := (s.connections user).getD {}

/-- The last `virConnectOpen` for the user has returned a handle. -/
def PoolState.Connected (s : PoolState) (user : User) : Prop :=
  ∃ o h, (s.opens user).head? = some o ∧ o.result = .handle h

/-- The entry of a user who is connected holds a handle and names the user; any other is blank. -/
theorem connected_cases {s : PoolState} (hI : PoolInv s) (u : User) :
    (s.Connected u ∧ (∃ h, (s.entry u).conn = some h) ∧ (s.entry u).user = u) ∨
      (¬ s.Connected u ∧ (s.entry u).conn = none ∧ (s.entry u).user = "") := by
  unfold PoolState.Connected PoolState.entry
  rw [hI.entry u]
  rcases s.opens u with _ | ⟨⟨ur, hd | errno, cl⟩, os⟩
  · exact .inr ⟨by simp, rfl, rfl⟩
  · exact .inl ⟨⟨_, hd, rfl, rfl⟩, ⟨hd, rfl⟩, rfl⟩
  · exact .inr ⟨by simp, rfl, rfl⟩

theorem poolInv_init : PoolInv PoolState.init where
  entry _ := rfl
  uri _ _ h := absurd h (by simp [PoolState.init])
  stale _ _ h := absurd h (by simp [PoolState.init])

theorem closed_of_entryOf {u : User} {os : List Opening} {c : Connection}
    (h : entryOf u os = some c) : c.closed = NeedsOpen os := by
  match os, h with
  | ⟨_, .null _, _⟩ :: _, h => cases h; rfl
  | ⟨_, .handle _, _⟩ :: _, h => cases h; rfl

/-- A history whose entry need not be opened starts with an open handle. -/
theorem needsOpen_false {os : List Opening} (h : NeedsOpen os = false) :
    ∃ uri hd rest, os = ⟨uri, .handle hd, false⟩ :: rest := by
  match os, h with
  | ⟨uri, .handle hd, false⟩ :: rest, _ => exact ⟨uri, hd, rest, rfl⟩

/-! ## What `get` does -/

theorem reconnect_opens (s : PoolState) (u : User) (r : OpenResult) :
    (s.reconnect strerror u r).2.opens =
      Function.update s.opens u ({ uri := uri u, result := r } :: s.opens u) := by
  cases r <;> rfl

theorem reconnect_connections (s : PoolState) (u : User) (r : OpenResult) :
    (s.reconnect strerror u r).2.connections =
      Function.update s.connections u
        (entryOf u ({ uri := uri u, result := r } :: s.opens u)) := by
  cases r <;> rfl

theorem reconnect_handle (s : PoolState) (u : User) (h : Handle) :
    (s.reconnect strerror u (.handle h)).1 =
      .ok { conn := some h, closed := false, user := u } := rfl

theorem reconnect_null (s : PoolState) (u : User) (errno : ℤ) :
    (s.reconnect strerror u (.null errno)).1 =
      .error ⟨.runtimeError, "error: " ++ strerror errno ++ "\n"⟩ := rfl

variable {strerror}

/-- `get` opens exactly the entries that need it. -/
theorem get_of_needsOpen {s : PoolState} (hI : PoolInv s) {u : User} (h : NeedsOpen (s.opens u) = true)
    (r : OpenResult) : s.get strerror u r = s.reconnect strerror u r := by
  have he := hI.entry u
  unfold PoolState.get
  cases hc : s.connections u with
  | none => rfl
  | some c =>
    rw [hc] at he
    simp [closed_of_entryOf he.symm, h]

variable (strerror) in
theorem get_of_open {s : PoolState} (hI : PoolInv s) {u : User} (h : NeedsOpen (s.opens u) = false)
    (r : OpenResult) :
    ∃ hd rest, s.opens u = ⟨uri u, .handle hd, false⟩ :: rest ∧
      s.get strerror u r = (.ok { conn := some hd, closed := false, user := u }, s) := by
  obtain ⟨ur, hd, rest, ho⟩ := needsOpen_false h
  have hu : ur = uri u := hI.uri u _ (by rw [ho]; exact List.mem_cons_self)
  subst hu
  refine ⟨hd, rest, ho, ?_⟩
  have he := hI.entry u
  rw [ho] at he
  simp [PoolState.get, he, entryOf]

/-- The history after a `get`. -/
theorem get_opens {s : PoolState} (hI : PoolInv s) (u : User) (r : OpenResult) :
    (s.get strerror u r).2.opens =
      if NeedsOpen (s.opens u) then
        Function.update s.opens u ({ uri := uri u, result := r } :: s.opens u)
      else s.opens := by
  cases h : NeedsOpen (s.opens u) with
  | true => rw [get_of_needsOpen hI h, reconnect_opens]; rfl
  | false =>
    obtain ⟨hd, rest, -, hg⟩ := get_of_open strerror hI h r
    rw [hg]; rfl

theorem get_connections_other (s : PoolState) {u v : User} (hv : v ≠ u) (r : OpenResult) :
    (s.get strerror u r).2.connections v = s.connections v := by
  have hrec : (s.reconnect strerror u r).2.connections v = s.connections v := by
    rw [reconnect_connections, Function.update_of_ne hv]
  unfold PoolState.get
  cases s.connections u with
  | none => exact hrec
  | some c =>
    simp only
    split_ifs
    · exact hrec
    · rfl

/-- What `get` throws is a `runtime_error`, whatever the pool holds. -/
theorem get_throws (s : PoolState) {u : User} {r : OpenResult} {e : Exn}
    (h : (s.get strerror u r).1 = .error e) : e.cls = .runtimeError := by
  have hrec : (s.reconnect strerror u r).1 = .error e → e.cls = .runtimeError := by
    intro h
    cases r with
    | null errno => rw [reconnect_null] at h; cases h; rfl
    | handle hd => rw [reconnect_handle] at h; cases h
  unfold PoolState.get at h
  cases hc : s.connections u with
  | none => rw [hc] at h; exact hrec h
  | some c =>
    simp only [hc] at h
    split_ifs at h
    exact hrec h

/-- What `get` returns is the entry it leaves. -/
theorem get_returns (s : PoolState) {u : User} {r : OpenResult} {c : Connection}
    (h : (s.get strerror u r).1 = .ok c) : (s.get strerror u r).2.entry u = c := by
  have hrec : (s.reconnect strerror u r).1 = .ok c → (s.reconnect strerror u r).2.entry u = c := by
    intro h
    cases r with
    | null errno => rw [reconnect_null] at h; cases h
    | handle hd =>
      rw [reconnect_handle] at h
      cases h
      unfold PoolState.entry
      rw [reconnect_connections, Function.update_self]
      rfl
  unfold PoolState.get at h ⊢
  cases hc : s.connections u with
  | none => rw [hc] at h; exact hrec h
  | some c' =>
    simp only [hc] at h ⊢
    split_ifs at h ⊢
    · exact hrec h
    · cases h
      simp [PoolState.entry, hc]

theorem get_opens_other {s : PoolState} (hI : PoolInv s) {u v : User} (hv : v ≠ u) (r : OpenResult) :
    (s.get strerror u r).2.opens v = s.opens v := by
  rw [get_opens hI]
  split_ifs
  · rw [Function.update_of_ne hv]
  · rfl

/-- A `get` that returns leaves an open handle of its user at the head of the history. -/
theorem get_ok {s : PoolState} (hI : PoolInv s) {u : User} {r : OpenResult} {c : Connection}
    (h : (s.get strerror u r).1 = .ok c) :
    ∃ hd rest, (s.get strerror u r).2.opens u = ⟨uri u, .handle hd, false⟩ :: rest ∧
      c = { conn := some hd, closed := false, user := u } := by
  cases hn : NeedsOpen (s.opens u) with
  | true =>
    rw [get_of_needsOpen hI hn] at h ⊢
    cases r with
    | null errno => rw [reconnect_null] at h; cases h
    | handle hd =>
      rw [reconnect_handle] at h
      cases h
      exact ⟨hd, s.opens u, by rw [reconnect_opens, Function.update_self], rfl⟩
  | false =>
    obtain ⟨hd, rest, ho, hg⟩ := get_of_open strerror hI hn r
    rw [hg] at h ⊢
    cases h
    exact ⟨hd, rest, ho, rfl⟩

/-- A `get` throws only when `virConnectOpen` returns null. -/
theorem get_error {s : PoolState} (hI : PoolInv s) {u : User} {r : OpenResult} {e : Exn}
    (h : (s.get strerror u r).1 = .error e) :
    ∃ errno, r = .null errno ∧ e = ⟨.runtimeError, "error: " ++ strerror errno ++ "\n"⟩ := by
  cases hn : NeedsOpen (s.opens u) with
  | true =>
    rw [get_of_needsOpen hI hn] at h
    cases r with
    | null errno => rw [reconnect_null] at h; cases h; exact ⟨errno, rfl, rfl⟩
    | handle hd => rw [reconnect_handle] at h; cases h
  | false =>
    obtain ⟨hd, rest, -, hg⟩ := get_of_open strerror hI hn r
    rw [hg] at h
    cases h

/-! ## The invariant -/

theorem poolInv_reconnect {s : PoolState} (hI : PoolInv s) {u : User}
    (hn : NeedsOpen (s.opens u) = true) (r : OpenResult) : PoolInv (s.reconnect strerror u r).2 where
  entry v := by
    rw [reconnect_connections, reconnect_opens]
    by_cases hv : v = u
    · subst hv; simp
    · simp [hv, hI.entry v]
  uri v o ho := by
    rw [reconnect_opens] at ho
    by_cases hv : v = u
    · subst hv
      rw [Function.update_self] at ho
      rcases List.mem_cons.mp ho with rfl | ho
      · rfl
      · exact hI.uri v o ho
    · rw [Function.update_of_ne hv] at ho
      exact hI.uri v o ho
  stale v o ho h hr := by
    rw [reconnect_opens] at ho
    by_cases hv : v = u
    · subst hv
      rw [Function.update_self, List.tail_cons] at ho
      -- the handle replaced now was closed, since the entry needed opening
      cases hos : s.opens v with
      | nil => rw [hos] at ho; cases ho
      | cons o' os =>
        rw [hos] at ho hn
        rcases List.mem_cons.mp ho with rfl | ho
        · obtain ⟨ur, res, cl⟩ := o
          simp only at hr
          subst hr
          exact hn
        · exact hI.stale v o (by rw [hos]; exact ho) h hr
    · rw [Function.update_of_ne hv] at ho
      exact hI.stale v o ho h hr

theorem poolInv_get {s : PoolState} (hI : PoolInv s) (u : User) (r : OpenResult) :
    PoolInv (s.get strerror u r).2 := by
  cases hn : NeedsOpen (s.opens u) with
  | true => rw [get_of_needsOpen hI hn]; exact poolInv_reconnect hI hn r
  | false =>
    obtain ⟨hd, rest, -, hg⟩ := get_of_open strerror hI hn r
    rw [hg]
    exact hI

/-- A close callback can only fire for the handle that the entry holds. -/
theorem close_cases {s t : PoolState} (hI : PoolInv s) {u : User} {n : ℕ}
    (h : s.close u n = some t) :
    ∃ hd rest, s.opens u = ⟨uri u, .handle hd, false⟩ :: rest ∧
      t = { connections := Function.update s.connections u
              (some { conn := some hd, closed := true, user := u })
            opens := Function.update s.opens u (⟨uri u, .handle hd, true⟩ :: rest) } := by
  unfold PoolState.close at h
  split at h
  case h_2 => cases h
  case h_1 ur hd hget =>
    have hu : ur = uri u := hI.uri u _ (List.mem_of_getElem? hget)
    subst hu
    have he := hI.entry u
    cases hos : s.opens u with
    | nil => rw [hos] at hget; simp at hget
    | cons o os =>
      rw [hos] at hget he h
      cases n with
      | zero =>
        obtain rfl : o = ⟨uri u, .handle hd, false⟩ := by simpa using hget
        refine ⟨hd, os, rfl, ?_⟩
        simp only [he, entryOf, Option.map_some, List.set_cons_zero, Option.some.injEq] at h
        exact h.symm
      | succ n =>
        have hmem : (⟨uri u, .handle hd, false⟩ : Opening) ∈ os := by
          rw [List.getElem?_cons_succ] at hget
          exact List.mem_of_getElem? hget
        have := hI.stale u _ (by rw [hos]; exact hmem) hd rfl
        cases this

theorem poolInv_close {s t : PoolState} (hI : PoolInv s) {u : User} {n : ℕ}
    (h : s.close u n = some t) : PoolInv t := by
  obtain ⟨hd, rest, ho, rfl⟩ := close_cases hI h
  refine ⟨fun v => ?_, fun v o hv => ?_, fun v o hv => ?_⟩
  · by_cases hvu : v = u
    · subst hvu; simp [entryOf]
    · simp [hvu, hI.entry v]
  · by_cases hvu : v = u
    · subst hvu
      simp only [Function.update_self] at hv
      rcases List.mem_cons.mp hv with rfl | hv
      · rfl
      · exact hI.uri v o (by rw [ho]; exact List.mem_cons_of_mem _ hv)
    · simp only [Function.update_of_ne hvu] at hv
      exact hI.uri v o hv
  · by_cases hvu : v = u
    · subst hvu
      simp only [Function.update_self, List.tail_cons] at hv
      exact hI.stale v o (by rw [ho]; exact hv)
    · simp only [Function.update_of_ne hvu] at hv
      exact hI.stale v o hv

variable (strerror) in
theorem poolInvariant : (poolMachine strerror).Invariant PoolInv where
  init := poolInv_init
  step s a t hI h := by
    cases a with
    | get u r =>
      obtain rfl : (s.get strerror u r).2 = t := by simpa [poolMachine] using h
      exact poolInv_get hI u r
    | close u n => exact poolInv_close hI h

/-! ## Fresh handles -/

/-- The handles that were opened for a user, newest first. -/
def PoolState.handles (s : PoolState) (u : User) : List Handle :=
  (s.opens u).filterMap fun o => o.result.handle?

/-- A `get` that opens receives a handle that no `virConnectOpen` returned before. -/
def Fresh (s : PoolState) : PoolAction → Prop
  | .get u (.handle h) => NeedsOpen (s.opens u) = true → ∀ v, h ∉ s.handles v
  | _ => True

/-- No handle was returned twice, neither to one user nor to two. -/
structure HandlesApart (s : PoolState) : Prop where
  nodup : ∀ u, (s.handles u).Nodup
  apart : ∀ u v h, h ∈ s.handles u → h ∈ s.handles v → u = v

theorem handlesApart_init : HandlesApart PoolState.init where
  nodup _ := List.nodup_nil
  apart _ _ _ h := absurd h List.not_mem_nil

/-- Only a `get` that opens adds a handle. -/
theorem get_handles {s : PoolState} (hI : PoolInv s) (u : User) (r : OpenResult) (v : User) :
    (s.get strerror u r).2.handles v =
      if v = u ∧ NeedsOpen (s.opens u) then r.handle?.toList ++ s.handles v else s.handles v := by
  unfold PoolState.handles
  rw [get_opens hI]
  by_cases hv : v = u
  · subst hv
    cases hn : NeedsOpen (s.opens v) with
    | true => cases r <;> simp [OpenResult.handle?]
    | false => simp
  · rw [if_neg (fun h : v = u ∧ _ => hv h.1)]
    split_ifs
    · rw [Function.update_of_ne hv]
    · rfl

theorem close_handles {s t : PoolState} (hI : PoolInv s) {u : User} {n : ℕ}
    (h : s.close u n = some t) (v : User) : t.handles v = s.handles v := by
  obtain ⟨hd, rest, ho, rfl⟩ := close_cases hI h
  unfold PoolState.handles
  by_cases hv : v = u
  · subst hv; simp [ho, OpenResult.handle?]
  · simp [hv]

theorem handlesApart_get {s : PoolState} (hI : PoolInv s) (hA : HandlesApart s) {u : User}
    {r : OpenResult} (hf : Fresh s (.get u r)) : HandlesApart (s.get strerror u r).2 := by
  have hnew : ∀ h, r.handle? = some h → NeedsOpen (s.opens u) = true → ∀ v, h ∉ s.handles v := by
    intro h hr hn
    cases r with
    | null errno => cases hr
    | handle h' => cases hr; exact hf hn
  constructor
  · intro v
    rw [get_handles hI]
    split_ifs with hv
    · cases hr : r.handle? with
      | none => exact hA.nodup v
      | some h => exact List.nodup_cons.mpr ⟨hnew h hr hv.2 v, hA.nodup v⟩
    · exact hA.nodup v
  · intro v w h hv hw
    rw [get_handles hI] at hv hw
    by_cases hn : NeedsOpen (s.opens u) = true
    · simp only [hn, and_true] at hv hw
      by_cases hvu : v = u <;> by_cases hwu : w = u <;>
        simp only [hvu, hwu, if_true, if_false, List.mem_append, Option.mem_toList] at hv hw
      · rw [hvu, hwu]
      · rcases hv with hv | hv
        · exact absurd hw (hnew h hv hn w)
        · rw [hvu]; exact hA.apart u w h hv hw
      · rcases hw with hw | hw
        · exact absurd hv (hnew h hw hn v)
        · rw [hwu]; exact hA.apart v u h hv hw
      · exact hA.apart v w h hv hw
    · rw [if_neg (fun h' => hn h'.2)] at hv hw
      exact hA.apart v w h hv hw

theorem handlesApart_close {s t : PoolState} (hI : PoolInv s) (hA : HandlesApart s) {u : User}
    {n : ℕ} (h : s.close u n = some t) : HandlesApart t where
  nodup v := by rw [close_handles hI h]; exact hA.nodup v
  apart v w hd hv hw := by
    rw [close_handles hI h] at hv hw
    exact hA.apart v w hd hv hw

/-- The handle of an entry is one of those opened for its user. -/
theorem mem_handles_of_entry {s : PoolState} (hI : PoolInv s) {u : User} {c : Connection}
    (hc : s.connections u = some c) {h : Handle} (hh : c.conn = some h) : h ∈ s.handles u := by
  have he := hI.entry u
  rw [hc] at he
  unfold PoolState.handles
  rcases ho : s.opens u with _ | ⟨⟨ur, hd | errno, cl⟩, os⟩ <;> rw [ho] at he
  · cases he
  · obtain rfl : _ = c := (Option.some.inj he).symm
    obtain rfl : hd = h := Option.some.inj hh
    simp [OpenResult.handle?]
  · obtain rfl : _ = c := (Option.some.inj he).symm
    cases hh

variable (strerror) in
/-- Along the runs in which `virConnectOpen` returns fresh handles, handles stay apart. -/
theorem handlesApart_always {as : List PoolAction}
    (hf : (poolMachine strerror).Meets Fresh PoolState.init as) :
    (poolMachine strerror).Always HandlesApart PoolState.init as := by
  refine Machine.always_of_meets (I := fun s => PoolInv s ∧ HandlesApart s) (fun s h => h.2) ?_
    ⟨poolInv_init, handlesApart_init⟩ hf
  intro s a t hs hC h
  refine ⟨(poolInvariant strerror).step s a t hs.1 h, ?_⟩
  cases a with
  | get u r =>
    obtain rfl : (s.get strerror u r).2 = t := by simpa [poolMachine] using h
    exact handlesApart_get hs.1 hs.2 hC
  | close u n => exact handlesApart_close hs.1 hs.2 h

/-! ## The contract of `get` -/

/-- In every state that any sequence of `get`s and close callbacks leads to, a further `get(u)`
returns an open handle of `u`, opens exactly when it has to, and fails cleanly. -/
theorem connectionPool_get_contract (strerror : ℤ → String) (as : List PoolAction) (s : PoolState)
    (hs : (poolMachine strerror).exec PoolState.init as = some s) (u : User) (r : OpenResult) :
    (∀ c, (s.get strerror u r).1 = .ok c →
      (s.get strerror u r).2.connections u = some c ∧ c.user = u ∧
      ∃ h rest, c.conn = some h ∧
        (s.get strerror u r).2.opens u = ⟨uri u, .handle h, false⟩ :: rest) ∧
    ((s.connections u = none ∨
        ∃ o rest, s.opens u = o :: rest ∧ ((∃ errno, o.result = .null errno) ∨ o.closed = true)) →
      (s.get strerror u r).2.opens u = { uri := uri u, result := r } :: s.opens u) ∧
    (¬ (s.connections u = none ∨
        ∃ o rest, s.opens u = o :: rest ∧ ((∃ errno, o.result = .null errno) ∨ o.closed = true)) →
      (s.get strerror u r).2.opens u = s.opens u) ∧
    (∀ v, v ≠ u → (s.get strerror u r).2.opens v = s.opens v) ∧
    (∀ e, (s.get strerror u r).1 = .error e →
      e.cls = .runtimeError ∧
      (∀ v, v ≠ u → (s.get strerror u r).2.connections v = s.connections v) ∧
      ∀ bs t h, (poolMachine strerror).exec (s.get strerror u r).2 bs = some t →
        ∃ c, (t.get strerror u (.handle h)).1 = .ok c) ∧
    (∀ e, (s.get strerror u r).1 = .error e → e.cls ≠ .overflowError) ∧
    ((poolMachine strerror).Meets Fresh PoolState.init as →
      ∀ v w c d h, v ≠ w → s.connections v = some c → s.connections w = some d →
        c.conn = some h → d.conn ≠ some h) := by
  have hI : PoolInv s := (poolInvariant strerror).exec poolInv_init hs
  have hcond : (s.connections u = none ∨
      ∃ o rest, s.opens u = o :: rest ∧ ((∃ errno, o.result = .null errno) ∨ o.closed = true)) ↔
      NeedsOpen (s.opens u) = true := by
    rw [hI.entry u]
    rcases s.opens u with _ | ⟨⟨ur, _ | _, _ | _⟩, os⟩ <;> simp [entryOf, NeedsOpen]
  refine ⟨fun c hc => ?_, fun h => ?_, fun h => ?_, fun v hv => get_opens_other hI hv r,
    fun e he => ⟨?_, fun v hv => get_connections_other s hv r, fun bs t h hbs => ?_⟩, fun e he => ?_,
    fun hf v w c d h hvw hc hd hch hdh => ?_⟩
  · obtain ⟨hd, rest, ho, rfl⟩ := get_ok hI hc
    refine ⟨?_, rfl, hd, rest, rfl, ho⟩
    rw [(poolInv_get hI u r).entry u, ho]
    rfl
  · rw [get_opens hI, if_pos (hcond.mp h), Function.update_self]
  · rw [get_opens hI, if_neg (fun h' => h (hcond.mpr h'))]
  · obtain ⟨errno, -, rfl⟩ := get_error hI he
    rfl
  · have ht : PoolInv t := (poolInvariant strerror).exec (poolInv_get hI u r) hbs
    cases hg : (t.get strerror u (.handle h)).1 with
    | ok c => exact ⟨c, rfl⟩
    | error e' =>
      obtain ⟨errno, hr, -⟩ := get_error ht hg
      cases hr
  · obtain ⟨errno, -, rfl⟩ := get_error hI he
    simp
  · have hA : HandlesApart s := (handlesApart_always strerror hf).last hs
    exact hvw (hA.apart v w h (mem_handles_of_entry hI hc hch) (mem_handles_of_entry hI hd hdh))

/-- An entry that was opened, closed and failed to reopen: the next `get` throws, and one after a
successful open returns. -/
theorem connectionPool_get_contract_reopened :
    ∃ s, (poolMachine (fun _ => "refused")).exec PoolState.init
        [.get "ann" (.handle 1), .close "ann" 0, .get "ann" (.null 111)] = some s ∧
      (s.get (fun _ => "refused") "ann" (.handle 2)).2.opens "ann" =
        { uri := uri "ann", result := .handle 2 } :: s.opens "ann" := by
  refine ⟨_, rfl, ?_⟩
  exact (connectionPool_get_contract (fun _ => "refused")
    [.get "ann" (.handle 1), .close "ann" 0, .get "ann" (.null 111)] _ rfl "ann" (.handle 2)).2.1
    (Or.inr ⟨_, _, rfl, Or.inl ⟨111, rfl⟩⟩)

end Webvirtd.Virt
