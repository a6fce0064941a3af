import Webvirtd.App.Frames

/-!
# App.Buckets — how websockets leave their bucket

A websocket is put into its bucket by the request that upgrades it, and only its close handler takes it
out.  Three exits do not lead there: a failed accept, a read that fails other than by `closed`, and an
upgrade that is never run.  Each of them leaves the websocket in the bucket for good.
-/

namespace Webvirtd.App

open Lib Virt Http

/-- The accept is still to complete, or a read is outstanding. -/
def Phase.waits : Phase → Bool
  | .posted => true
  | .accepting => true
  | .reading => true
  | _ => false

/-- The last operation of the websocket has completed, or it will never be run. -/
def Phase.ended : Phase → Bool
  | .unstarted => true
  | .failed => true
  | .broken => true
  | .closed => true
  | _ => false

/-- Over, but not by `closed`. -/
def Phase.stuck : Phase → Bool
  | .unstarted => true
  | .failed => true
  | .broken => true
  | _ => false

/-- Buckets hold websockets that wait for something, those with a handler in progress apart. -/
structure BucketsLive (s : State) : Prop where
  waits : ∀ u, ∀ i ∈ s.buckets u, ∃ k, s.socks i = some k ∧
    (k.phase.idle = true → k.phase.waits = true)
  ended : ∀ i k, s.socks i = some k → k.phase.ended = true → ∀ u, i ∉ s.buckets u

/-- The step is none of the three exits. -/
def ExitAllowed (s : State) : Action → Prop
  | .accept _ ok => ok = true
  | .read _ r => r ≠ .error
  | .request target isUpgrade errno => isUpgrade = true ∨ ∀ cell, websocketUser target = some cell →
    NeedsOpen (s.pool.opens cell) = true ∧ ∃ e, errno = some e
  | _ => True

/-- No websocket is stuck. -/
def NoneStuck (s : State) : Prop := ∀ i k, s.socks i = some k → k.phase.stuck = false

section

variable {strerror : ℤ → String} {s t : State}

/-- A bucket holds exactly the websockets that their close handler has not removed, so it is live when
none of them is stuck. -/
theorem bucketsLive_iff (h : SocksOk s) : BucketsLive s ↔ NoneStuck s := by
  constructor
  · intro hb i k hk
    cases hp : k.phase.stuck with
    | false => rfl
    | true =>
      have hover : k.phase.ended = true ∧ k.phase.inBucket = true := by
        revert hp
        cases k.phase <;> decide
      have hm : i ∈ s.buckets k.user := (h.bucket _ i).mpr ⟨k, hk, rfl, hover.2⟩
      exact absurd hm (hb.ended i k hk hover.1 _)
  · intro hs
    refine ⟨fun u i hi => ?_, fun i k hk hover u hi => ?_⟩
    · obtain ⟨k, hk, -, hp⟩ := (h.bucket u i).mp hi
      refine ⟨k, hk, ?_⟩
      have hstuck := hs i k hk
      revert hp hstuck
      cases k.phase <;> decide
    · obtain ⟨k', hk', -, hp⟩ := (h.bucket u i).mp hi
      rw [hk] at hk'
      obtain rfl := Option.some.inj hk'
      have hstuck := hs i k hk
      revert hover hp hstuck
      cases k.phase <;> decide

theorem Moves.stuck {a : Action} {j : SockId} {p p' : Phase} (h : Moves a j p p')
    (hs : p'.stuck = true) : a = .accept j false ∨ a = .read j .error := by
  cases h with
  | refused => exact .inl rfl
  | broken => exact .inr rfl
  | _ => cases hs

/-- A request is served unless the connection has to be opened and cannot. -/
theorem poolGet_ok_iff (h : PoolOk s) (user : User) (errno : Option ℤ) :
    (∃ c, (s.poolGet strerror user errno).1 = .ok c) ↔
      ¬ (NeedsOpen (s.pool.opens user) = true ∧ ∃ e, errno = some e) := by
  rw [State.poolGet_fst]
  cases hn : NeedsOpen (s.pool.opens user) with
  | false =>
    obtain ⟨hd, rest, -, hg⟩ := get_of_open strerror h.inv hn (s.openResult errno)
    rw [hg]
    simp
  | true =>
    rw [get_of_needsOpen h.inv hn]
    cases errno with
    | none => exact ⟨fun _ hc => by simp at hc, fun _ => ⟨_, rfl⟩⟩
    | some e =>
      refine ⟨fun ⟨c, hc⟩ => ?_, fun hc => absurd ⟨rfl, e, rfl⟩ hc⟩
      rw [State.openResult, reconnect_null] at hc
      cases hc

/-- One step: the exits are what makes websockets stuck. -/
theorem noneStuck_outcome (h : AppInv s) (hs : NoneStuck s) {a : Action}
    (ha : s.Outcome strerror t a) : NoneStuck t ↔ ExitAllowed s a := by
  constructor
  · intro ht
    cases a with
    | accept i ok =>
      obtain ⟨k, -, -, rfl⟩ := ha
      have hp := ht i _ (State.setSock_self ..)
      cases ok with
      | true => rfl
      | false => cases hp
    | read i r =>
      obtain ⟨k, -, -, rfl⟩ := ha
      rintro rfl
      have hp := ht i _ (State.setSock_self ..)
      cases hp
    | request target isUpgrade errno =>
      cases isUpgrade with
      | true => exact .inl rfl
      | false =>
        refine .inr fun cell hcell => ?_
        obtain ⟨cell', hcell', ⟨e, he, -⟩ | ⟨c, -, rfl⟩⟩ := ha
        · rw [hcell] at hcell'
          obtain rfl := Option.some.inj hcell'
          by_contra hopen
          obtain ⟨c, hc⟩ := (poolGet_ok_iff h.pool cell errno).mpr hopen
          rw [he] at hc
          cases hc
        · have hp := ht _ _ (State.setSock_self ..)
          cases hp
    | _ => trivial
  · intro hC j k' hk'
    rcases sock_outcome h.core ha hk' with ⟨k, hk, -, hp, -⟩ | ⟨k, -, -, hmove, -⟩ |
      ⟨target, isUpgrade, errno, cell, c, rfl, hcell, hget, hp, -⟩
    · rw [hp]
      exact hs j k hk
    · by_contra hstuck
      rcases hmove.stuck (Bool.eq_true_of_not_eq_false hstuck) with rfl | rfl
      · cases hC
      · exact hC rfl
    · rw [hp]
      rcases hC with rfl | hclosed
      · rfl
      · exact absurd (hclosed cell hcell) ((poolGet_ok_iff h.pool cell errno).mp ⟨c, hget⟩)

end

/-- **Live buckets.**  Along a run the buckets hold only websockets that wait for something if and only
if no websocket of the run fails its accept, fails a read other than by `closed`, or is upgraded without
being run. -/
theorem bucketsLive_always_iff (strerror : ℤ → String) (as : List Action) :
    (appMachine strerror).Always BucketsLive {} as ↔
      (appMachine strerror).Meets ExitAllowed {} as := by
  have hinit : NoneStuck {} := fun _ _ hk => by cases hk
  refine (appInvariant strerror).always_iff_meets ((bucketsLive_iff appInv_init.socks).mpr hinit) ?_ as
  intro s a t hs ht hb hst
  have hnone : NoneStuck s := (bucketsLive_iff hs.socks).mp hb
  rw [bucketsLive_iff ht.socks]
  exact noneStuck_outcome hs hnone (State.step_outcome hst).2

/-- A websocket whose accept fails stays in its bucket. -/
theorem bucket_leak :
    ¬ (appMachine fun _ => "").Always BucketsLive {}
      [.request "/users/ann/websocket/" true none, .asyncRun 0, .accept 0 false] := by
  intro h
  obtain ⟨s, hs, k, hk, hp, hm⟩ : ∃ s, (appMachine fun _ => "").exec {}
      [.request "/users/ann/websocket/" true none, .asyncRun 0, .accept 0 false] = some s ∧
      ∃ k, s.socks 0 = some k ∧ k.phase.ended = true ∧ 0 ∈ s.buckets "ann" :=
    ⟨_, rfl, _, rfl, rfl, List.mem_cons_self⟩
  exact (h.last hs).ended 0 k hk hp "ann" hm

end Webvirtd.App
