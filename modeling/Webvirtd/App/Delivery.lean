import Webvirtd.App.Isolation
import Webvirtd.App.Upgrading
import Webvirtd.Lib.Hub

/-!
# App.Delivery — what is written to a websocket over a whole run

The app is a hub: `websockets_.add` joins a websocket to the topic that `conn.user()` names then, its removal from the
bucket is the leave, and an event of a target type that libvirt delivers to a callback of a connection is published to
the user of that connection (`hub_step`).  So over a run of any interleaving an `async_write` is started on a websocket
for each such event between its `add` and its removal, once and in their order (`delivery`), and two websockets in one
bucket differ in what came before the later one (`sockets_agree`).

What becomes of a write is not looked at here, nor whether the stream is open.
-/

namespace Webvirtd.App

open Lib Virt Http

/-- The writes started on a websocket: from which connections the events came, and their data; oldest first. -/
def State.written (s : State) (i : SockId) : List (Handle × Json) :=
  (s.writes.filter fun w => w.sock = i).reverse.map fun w => (w.source, w.data)

/-- The events of target types that libvirt delivers from connections of the user. -/
def news (user : User) (as : List UpgradeAction) : List (Handle × Json) :=
  as.filterMap fun
    | .app (.event u h _ type (some data)) => if type.isTarget = true ∧ u = user then some (h, data) else none
    | _ => none

namespace UpgradeState

variable (s : UpgradeState)

def hub : Hub SockId User (Handle × Json) where
  topic i := (s.added i).map Added.bucket
  member i := (s.app.socks i).any fun k => k.phase.inBucket
  inbox := s.app.written

/-- What a step is for the hub. -/
def hubLabel : UpgradeAction → HubAct SockId User (Handle × Json)
  | .add r => (s.requests r).elim .idle fun q => .join s.app.nextSock (s.app.entry q.cell).user
  | .app (.remove i) => if (s.app.socks i).any fun k => i ∈ s.app.buckets k.user then .leave i else .idle
  | .app (.event user h _ type (some data)) => if type.isTarget = true then .publish user (h, data) else .idle
  | _ => .idle

end UpgradeState

section

variable {strerror : ℤ → String} {s t : UpgradeState}

theorem news_cons (user : User) (a : UpgradeAction) (as : List UpgradeAction) :
    news user (a :: as) = news user [a] ++ news user as := List.filterMap_append (l := [a])

/-- The labels publish what the events are. -/
theorem published_hubLabel (user : User) (s : UpgradeState) (a : UpgradeAction) :
    published user [s.hubLabel a] = news user [a] := by
  cases a with
  | add r =>
    show published user [(s.requests r).elim _ _] = []
    cases s.requests r with
    | none => rfl
    | some q => rfl
  | app a =>
    cases a with
    | remove i =>
      show published user [if _ then _ else _] = []
      split_ifs
      · rfl
      · rfl
    | event u h id type domain =>
      cases domain with
      | none => rfl
      | some data =>
        show published user [if type.isTarget = true then _ else _] = _
        by_cases ht : type.isTarget = true
        · by_cases hu : u = user
          · simp [published, news, ht, hu]
          · simp [published, news, ht, hu]
        · simp [published, news, ht]
    | _ => rfl
  | _ => rfl

theorem published_labels {as : List UpgradeAction} (user : User)
    (h : (upgradeMachine strerror).exec s as = some t) :
    published user ((upgradeMachine strerror).labels UpgradeState.hubLabel s as) = news user as := by
  induction as generalizing s with
  | nil => rfl
  | cons a as ih =>
    obtain ⟨u, hu, hut⟩ := Machine.exec_cons_eq_some.mp h
    have hcons : published user (s.hubLabel a :: (upgradeMachine strerror).labels UpgradeState.hubLabel u as) =
        published user [s.hubLabel a] ++
          published user ((upgradeMachine strerror).labels UpgradeState.hubLabel u as) :=
      List.filterMap_append (l := [s.hubLabel a])
    rw [Machine.labels_cons hu, hcons, published_hubLabel, ih hut, ← news_cons]

/-! ## Steps -/

theorem hub_member {i : SockId} {k : Sock} (hk : s.app.socks i = some k) : s.hub.member i = k.phase.inBucket := by
  show (s.app.socks i).any _ = _
  rw [hk]
  rfl

theorem hub_topic {i : SockId} {x : Added} (hx : s.added i = some x) : s.hub.topic i = some x.bucket :=
  congrArg (Option.map Added.bucket) hx

theorem mem_bucket_hub (h : UpgradeInv s) (user : User) (i : SockId) :
    i ∈ s.app.buckets user ↔ s.hub.member i = true ∧ s.hub.topic i = some user := by
  rw [h.bucket user i]
  constructor
  · rintro ⟨k, x, hk, hx, rfl, hp⟩
    exact ⟨(hub_member hk).trans hp, hub_topic hx⟩
  · rintro ⟨hm, ht⟩
    obtain ⟨x, hx, hu⟩ := Option.map_eq_some_iff.mp ht
    cases hk : s.app.socks i with
    | none =>
      replace hm : (s.app.socks i).any _ = true := hm
      rw [hk] at hm
      cases hm
    | some k => exact ⟨k, x, rfl, hx, hu, (hub_member hk).symm.trans hm⟩

theorem hub_congr {app : State} (hmember : ∀ i, (app.socks i).map Sock.identity = (s.app.socks i).map Sock.identity)
    (hwrites : app.writes = s.app.writes) : UpgradeState.hub { s with app := app } = s.hub := by
  refine Hub.ext rfl ?_ ?_
  · funext i
    show (app.socks i).any (fun k => k.phase.inBucket) = (s.app.socks i).any fun k => k.phase.inBucket
    have h := congrArg (fun o => o.any fun x => x.2.2.2) (hmember i)
    simpa [Option.any_map, Function.comp_def, Sock.identity] using h
  · funext i
    show app.written i = s.app.written i
    unfold State.written
    rw [hwrites]

theorem hub_addSockTo (k : Sock) (hp : k.phase.inBucket = true) (x : Added) (requests : ℕ → Option Upgrading) :
    UpgradeState.hub
      { s with
        app := s.app.addSockTo x.bucket k
        requests := requests
        added := Function.update s.added s.app.nextSock (some x) } = s.hub.join s.app.nextSock x.bucket := by
  refine Hub.ext ?_ ?_ rfl
  · funext i
    show (Function.update s.added s.app.nextSock (some x) i).map _ =
      Function.update s.hub.topic s.app.nextSock (some x.bucket) i
    by_cases hi : i = s.app.nextSock
    · subst hi
      simp
    · simp [Function.update_of_ne hi, UpgradeState.hub]
  · funext i
    show (Function.update s.app.socks s.app.nextSock (some k) i).any _ =
      Function.update s.hub.member s.app.nextSock true i
    by_cases hi : i = s.app.nextSock
    · subst hi
      simp [hp]
    · simp [Function.update_of_ne hi, UpgradeState.hub]

theorem hub_removed (i : SockId) (k : Sock) (buckets : User → List SockId) :
    UpgradeState.hub { s with app := { s.app.setSock i { k with phase := .removed } with buckets := buckets } } =
      s.hub.leave i := by
  refine Hub.ext rfl ?_ rfl
  funext j
  show (Function.update s.app.socks i _ j).any _ = Function.update s.hub.member i false j
  by_cases hj : j = i
  · subst hj
    simp [Phase.inBucket]
  · simp [Function.update_of_ne hj, UpgradeState.hub]

theorem filter_writeOf (s : State) (source : Handle) (data : Json) (i j : SockId) :
    (s.writeOf source data j).filter (fun w => w.sock = i) = if j = i then s.writeOf source data i else [] := by
  unfold State.writeOf
  by_cases hj : j = i
  · subst hj
    cases s.socks j with
    | none => simp
    | some k => simp
  · cases s.socks j with
    | none => simp [hj]
    | some k => simp [hj]

theorem filter_broadcast (s : State) {l : List SockId} (hl : l.Nodup) (source : Handle) (data : Json) (i : SockId) :
    (l.flatMap fun j => s.writeOf source data j).filter (fun w => w.sock = i) =
      if i ∈ l then s.writeOf source data i else [] := by
  induction l with
  | nil => rfl
  | cons j l ih =>
    obtain ⟨hj, hl⟩ := List.nodup_cons.mp hl
    rw [List.flatMap_cons, List.filter_append, filter_writeOf, ih hl]
    by_cases hji : j = i
    · subst hji
      simp [hj]
    · have hij : ¬ i = j := Ne.symm hji
      simp [hji, hij]

theorem hub_broadcast (h : UpgradeInv s) (source : Handle) (user : User) (data : Json) :
    UpgradeState.hub { s with app := s.app.broadcast source user data } = s.hub.publish user (source, data) := by
  rw [State.broadcast_spec s.app source data user (h.core.nodup _)]
  refine Hub.ext rfl ?_ ?_
  · funext i
    show Option.any _ (if i ∈ s.app.buckets user then (s.app.socks i).map State.startWrite else s.app.socks i) =
      (s.app.socks i).any fun k => k.phase.inBucket
    split_ifs
    · rw [Option.any_map]
      rfl
    · rfl
  · funext i
    have hmem := mem_bucket_hub h user i
    show List.map _ (List.filter _ (_ ++ s.app.writes)).reverse = if _ then _ else _
    rw [List.filter_append, filter_broadcast _ (List.nodup_reverse.mpr (h.core.nodup user)), List.reverse_append,
      List.map_append]
    by_cases hi : i ∈ s.app.buckets user
    · obtain ⟨k, -, hk, -⟩ := (h.bucket user i).mp hi
      rw [if_pos (List.mem_reverse.mpr hi), if_pos (hmem.mp hi)]
      unfold State.writeOf
      rw [hk]
      rfl
    · rw [if_neg (fun hr => hi (List.mem_reverse.mp hr)), if_neg (fun hr => hi (hmem.mpr hr))]
      exact List.append_nil _

/-- A step of the app, other than a websocket request. -/
theorem hub_app (h : UpgradeInv s) {a : Action} {app : State}
    (hne : ∀ target isUpgrade errno, a ≠ .request target isUpgrade errno) (ha : s.app.Outcome strerror app a) :
    hubMachine.step s.hub (s.hubLabel (.app a)) = some (UpgradeState.hub { s with app := app }) := by
  by_cases hremove : ∃ i, a = .remove i
  · obtain ⟨i, rfl⟩ := hremove
    obtain ⟨k, hk, hp, rfl⟩ := ha
    have hlabel : s.hubLabel (.app (.remove i)) = if i ∈ s.app.buckets k.user then .leave i else .idle := by
      show (if (s.app.socks i).any fun k => i ∈ s.app.buckets k.user then _ else _) = _
      simp [hk]
    rw [hlabel]
    split_ifs with hm
    · rw [hub_removed]
      exact if_pos ((mem_bucket_hub h _ i).mp hm).1
    · exact congrArg some (hub_congr (fun _ => rfl) rfl).symm
  · have hremove : ∀ i, a ≠ .remove i := fun i hi => hremove ⟨i, hi⟩
    have hidle : app.writes = s.app.writes → UpgradeState.hub { s with app := app } = s.hub :=
      hub_congr (identity_outcome h.core ha hne hremove)
    have hwrites := writes_outcome h.core ha
    cases a with
    | event user hd id type domain =>
      rcases event_of_handleOpen h.core ha.1 ha.2 with ⟨-, rfl, rfl⟩ | ⟨htype, data, rfl, rfl⟩ | ⟨htype, rfl⟩
      · exact congrArg some (hidle rfl).symm
      · simp only [UpgradeState.hubLabel, htype, if_true]
        rw [hub_broadcast h]
        rfl
      · cases domain with
        | none => rfl
        | some data => simp [UpgradeState.hubLabel, htype, hubMachine]
    | request target isUpgrade errno => exact absurd rfl (hne _ _ _)
    | remove i => exact absurd rfl (hremove i)
    | _ =>
      rcases hwrites with hw | ⟨_, _, _, _, _, ha, -⟩
      · exact congrArg some (hidle hw).symm
      · cases ha

/-- A step of the app is one of the hub. -/
theorem hub_step {a : UpgradeAction} (h : UpgradeInv s) (hst : (upgradeMachine strerror).step s a = some t) :
    hubMachine.step s.hub (s.hubLabel a) = some t.hub := by
  cases (upgrade_outcome hst).2 with
  | app a app hne happ ht =>
    rw [ht]
    exact hub_app h hne (State.step_outcome happ).2
  | refused target isUpgrade errno cell e hcell hget ht =>
    rw [ht]
    exact congrArg some (hub_congr (fun _ => rfl) rfl).symm
  | connected target isUpgrade errno cell c hcell hget ht =>
    rw [ht]
    exact congrArg some (hub_congr (fun _ => rfl) rfl).symm
  | copied r q hq hc ht =>
    rw [ht]
    rfl
  | added r q c hq hc ht =>
    have hnew : s.hub.topic s.app.nextSock = none := by
      cases hx : s.added s.app.nextSock with
      | none => simp [UpgradeState.hub, hx]
      | some x => exact absurd (h.lt _ x hx) (lt_irrefl _)
    have hbucket : (if q.isUpgrade then Phase.posted else Phase.unstarted).inBucket = true := by
      cases q.isUpgrade with
      | true => rfl
      | false => rfl
    have hjoin := hub_addSockTo (s := s)
      { target := q.target, cell := q.cell, user := c.user, phase := if q.isUpgrade then .posted else .unstarted }
      hbucket ⟨(s.app.entry q.cell).user, c.connected, s.app.connected q.cell⟩ (Function.update s.requests r none)
    simp only [UpgradeState.hubLabel, hq, Option.elim_some]
    rw [ht, hjoin]
    exact if_pos hnew

theorem hub_exec {as : List UpgradeAction} (hs : (upgradeMachine strerror).exec {} as = some s) :
    hubMachine.exec .empty ((upgradeMachine strerror).labels UpgradeState.hubLabel {} as) = some s.hub :=
  Machine.exec_labels (upgradeInvariant strerror) (fun _ _ _ h hst => hub_step h hst) upgradeInv_init hs

theorem eq_of_labels_cons {as : List UpgradeAction} {b : HubAct SockId User (Handle × Json)}
    {bs : List (HubAct SockId User (Handle × Json))} (h : (upgradeMachine strerror).exec s as = some t)
    (hl : (upgradeMachine strerror).labels UpgradeState.hubLabel s as = b :: bs) :
    ∃ a as' u, as = a :: as' ∧ s.hubLabel a = b ∧ (upgradeMachine strerror).step s a = some u ∧
      (upgradeMachine strerror).exec u as' = some t ∧
      (upgradeMachine strerror).labels UpgradeState.hubLabel u as' = bs := by
  cases as with
  | nil => cases hl
  | cons a as =>
    obtain ⟨u, hu, hut⟩ := Machine.exec_cons_eq_some.mp h
    rw [Machine.labels_cons hu] at hl
    obtain ⟨hb, hl⟩ := List.cons_eq_cons.mp hl
    exact ⟨a, as, u, rfl, hb, hu, hut, hl⟩

theorem eq_of_hubLabel_leave {a : UpgradeAction} {i : SockId} (h : s.hubLabel a = .leave i) :
    a = .app (.remove i) := by
  cases a with
  | add r =>
    replace h : (s.requests r).elim _ _ = HubAct.leave i := h
    cases hq : s.requests r with
    | none => simp [hq] at h
    | some q => simp [hq] at h
  | app a =>
    cases a with
    | remove j =>
      replace h : (if _ then HubAct.leave j else .idle) = HubAct.leave i := h
      split_ifs at h
      exact congrArg (fun j => UpgradeAction.app (.remove j)) (HubAct.leave.inj h)
    | event user hd id type domain =>
      cases domain with
      | none => cases h
      | some data =>
        by_cases ht : type.isTarget = true
        · simp [UpgradeState.hubLabel, ht] at h
        · simp [UpgradeState.hubLabel, ht] at h
    | _ => cases h
  | _ => cases h

theorem eq_of_hubLabel_join {a : UpgradeAction} {i : SockId} {user : User} (h : s.hubLabel a = .join i user) :
    s.app.nextSock = i ∧ ∃ r q, a = .add r ∧ s.requests r = some q ∧ (s.app.entry q.cell).user = user := by
  cases a with
  | add r =>
    replace h : (s.requests r).elim _ _ = HubAct.join i user := h
    cases hq : s.requests r with
    | none => simp [hq] at h
    | some q =>
      rw [hq] at h
      obtain ⟨hi, huser⟩ := HubAct.join.inj h
      exact ⟨hi, r, q, rfl, hq, huser⟩
  | app a =>
    cases a with
    | remove j =>
      replace h : (if _ then HubAct.leave j else .idle) = HubAct.join i user := h
      split_ifs at h
    | event user hd id type domain =>
      cases domain with
      | none => cases h
      | some data =>
        by_cases ht : type.isTarget = true
        · simp [UpgradeState.hubLabel, ht] at h
        · simp [UpgradeState.hubLabel, ht] at h
    | _ => cases h
  | _ => cases h

/-- Websockets are numbered in the order in which they are added. -/
theorem nextSock_le {a : UpgradeAction} (h : UpgradeInv s) (hst : (upgradeMachine strerror).step s a = some t) :
    s.app.nextSock ≤ t.app.nextSock := by
  cases (upgrade_outcome hst).2 with
  | app a app hne happ ht =>
    rw [ht]
    have ha := (State.step_outcome happ).2
    by_cases hremove : ∃ i, a = .remove i
    · obtain ⟨i, rfl⟩ := hremove
      obtain ⟨k, -, -, rfl⟩ := ha
      split_ifs
      · exact le_rfl
      · exact le_rfl
    · exact (buckets_outcome h.core ha hne fun i hi => hremove ⟨i, hi⟩).2.ge
  | refused target isUpgrade errno cell e hcell hget ht => rw [ht]; exact le_rfl
  | connected target isUpgrade errno cell c hcell hget ht => rw [ht]; exact le_rfl
  | copied r q hq hc ht => rw [ht]
  | added r q c hq hc ht => rw [ht]; exact Nat.le_succ _

theorem nextSock_le_of_exec {as : List UpgradeAction} (h : UpgradeInv s)
    (hst : (upgradeMachine strerror).exec s as = some t) : s.app.nextSock ≤ t.app.nextSock := by
  induction as generalizing s with
  | nil =>
    obtain rfl : s = t := by simpa using hst
    exact le_rfl
  | cons a as ih =>
    obtain ⟨u, hu, hut⟩ := Machine.exec_cons_eq_some.mp hst
    exact (nextSock_le h hu).trans (ih ((upgradeInvariant strerror).step s a u h hu) hut)

end

/-! ## Runs -/

/-- When `i` was in the bucket of `user`: the step `add` of the request `r`, after `before`, put it there, and it
stayed over `during`; if it is not there any more, its close handler has taken it out next. -/
structure Stay (strerror : ℤ → String) (as : List UpgradeAction) (s : UpgradeState) (i : SockId) (user : User)
    (before : List UpgradeAction) (r : ℕ) (during : List UpgradeAction) : Prop where
  run : ∃ rest, as = before ++ .add r :: (during ++ rest) ∧
    (rest = [] ∧ i ∈ s.app.buckets user ∨ (∃ rest', rest = .app (.remove i) :: rest') ∧ i ∉ s.app.buckets user)
  stays : ∃ u u' q, (upgradeMachine strerror).exec {} before = some u ∧ u.app.nextSock = i ∧
    u.requests r = some q ∧ (u.app.entry q.cell).user = user ∧ (upgradeMachine strerror).step u (.add r) = some u' ∧
    (upgradeMachine strerror).Always (fun t => i ∈ t.app.buckets user) u' during

section

variable {strerror : ℤ → String} {as : List UpgradeAction} {s : UpgradeState} {i : SockId}

/-- While it does not leave, it is in the bucket. -/
theorem always_mem {t u : UpgradeState} {bs : List UpgradeAction} {user : User} (h : UpgradeInv t)
    (hm : t.hub.member i = true) (ht : t.hub.topic i = some user) (hu : (upgradeMachine strerror).exec t bs = some u)
    (hleave : .leave i ∉ (upgradeMachine strerror).labels UpgradeState.hubLabel t bs) :
    (upgradeMachine strerror).Always (fun t => i ∈ t.app.buckets user) t bs := by
  have hin := (mem_bucket_hub h user i).mpr ⟨hm, ht⟩
  induction bs generalizing t with
  | nil => exact hin
  | cons b bs ih =>
    obtain ⟨v, hv, hvu⟩ := Machine.exec_cons_eq_some.mp hu
    rw [Machine.labels_cons hv] at hleave
    obtain ⟨hne, hleave⟩ := List.ne_and_not_mem_of_not_mem_cons hleave
    have hv' : UpgradeInv v := (upgradeInvariant strerror).step t b v h hv
    obtain ⟨ht', ⟨hb, -⟩ | ⟨-, hm', -⟩⟩ := Hub.step_member hm ht (hub_step h hv)
    · exact absurd hb.symm hne
    · refine ⟨hin, fun w hw => ?_⟩
      rw [hv] at hw
      obtain rfl := Option.some.inj hw
      exact ih hv' hm' ht' hvu hleave ((mem_bucket_hub hv' user i).mpr ⟨hm', ht'⟩)

theorem stay_of_exec (hs : (upgradeMachine strerror).exec {} as = some s) {x : Added} (hx : s.added i = some x) :
    ∃ before r during, Stay strerror as s i x.bucket before r during ∧ s.app.written i = news x.bucket during := by
  have hinv := upgradeInvariant strerror
  obtain ⟨lbefore, lduring, lrest, hl, hleave, hrest, hinbox⟩ := Hub.inbox_eq rfl rfl (hub_exec hs) (hub_topic hx)
  obtain ⟨before, as', u, rfl, h1, h2, -, hl1⟩ := Machine.labels_split hs hl
  obtain ⟨a, as'', u', rfl, hjoin, hst, h3, hl2⟩ := eq_of_labels_cons h2 hl1
  obtain ⟨during, rest, v, rfl, h4, h5, hduring, hl3⟩ := Machine.labels_split h3 hl2
  obtain ⟨hi, r, q, rfl, hq, huser⟩ := eq_of_hubLabel_join hjoin
  have hu : UpgradeInv u := hinv.exec upgradeInv_init h1
  have hmem := mem_bucket_hub (hinv.exec upgradeInv_init hs) x.bucket i
  have htopic : s.hub.topic i = some x.bucket := hub_topic hx
  refine ⟨before, r, during, ⟨⟨rest, rfl, ?_⟩, u, u', q, h1, hi, hq, huser, hst, ?_⟩, ?_⟩
  · rcases hrest with ⟨rfl, hin⟩ | ⟨⟨lrest', rfl⟩, hout⟩
    · refine .inl ⟨?_, hmem.mpr ⟨hin, htopic⟩⟩
      cases rest with
      | nil => rfl
      | cons a rest =>
        obtain ⟨w, hw, -⟩ := Machine.exec_cons_eq_some.mp h5
        rw [Machine.labels_cons hw] at hl3
        cases hl3
    · obtain ⟨a, rest', -, rfl, ha, -⟩ := eq_of_labels_cons h5 hl3
      obtain rfl := eq_of_hubLabel_leave ha
      refine .inr ⟨⟨rest', rfl⟩, fun hm => ?_⟩
      rw [(hmem.mp hm).1] at hout
      cases hout
  · obtain ⟨hm', ht'⟩ := Hub.joined (hjoin ▸ hub_step hu hst)
    exact always_mem (hinv.step u _ u' hu hst) hm' ht' h4 (hduring ▸ hleave)
  · have hnews := published_labels x.bucket h4
    rw [hduring] at hnews
    rw [← hnews]
    exact hinbox

end

/-- The domain of `ann` starts before and after her second websocket comes, and libvirt closes her connection between
the two reads of a third one. -/
def threeSockets : List UpgradeAction :=
  [.connect "/users/ann/websocket/" true none, .copy 0, .add 0, .app (.asyncRun 0), .app (.accept 0 true),
    .app (.find 0), .app (.addEvents 0 7), .app (.event "ann" 0 7 .started (some .null)),
    .connect "/users/ann/websocket/" true none, .copy 1, .add 1, .app (.event "ann" 0 7 .stopped (some (.int 1))),
    .app (.read 0 .closed), .connect "/users/ann/websocket/" true none, .copy 2, .app (.remove 0),
    .app (.event "ann" 0 7 .started (some .null)), .app (.closeConn "ann" 0), .app (.get "ann" (some 111)), .add 2]

/-- Of two websockets that are in one bucket, what has been written to the later one is the last of what has been
written to the other. -/
theorem sockets_agree (strerror : ℤ → String) {as : List UpgradeAction} {s : UpgradeState}
    (hs : (upgradeMachine strerror).exec {} as = some s) {user : User} {i j : SockId} (hij : i < j)
    (hi : i ∈ s.app.buckets user) (hj : j ∈ s.app.buckets user) : s.app.written j <:+ s.app.written i := by
  have hinv := upgradeInvariant strerror
  have hs' : UpgradeInv s := hinv.exec upgradeInv_init hs
  -- both are in the bucket from their `add` on
  have hstay : ∀ {i}, i ∈ s.app.buckets user → ∃ before r during u, as = before ++ .add r :: during ∧
      (upgradeMachine strerror).exec {} before = some u ∧ u.app.nextSock = i ∧ s.app.written i = news user during := by
    intro i hi
    obtain ⟨k, x, -, hx, rfl, -⟩ := (hs'.bucket user i).mp hi
    obtain ⟨before, r, during, ⟨⟨rest, has, ⟨rfl, -⟩ | ⟨-, hout⟩⟩, u, -, -, hu, hn, -⟩, hw⟩ := stay_of_exec hs hx
    · exact ⟨before, r, during, u, by rw [has, List.append_nil], hu, hn, hw⟩
    · exact absurd hi hout
  obtain ⟨before, r, during, u, has, hu, hn, hw⟩ := hstay hi
  obtain ⟨before', r', during', u', has', hu', hn', hw'⟩ := hstay hj
  rcases List.prefix_or_prefix_of_prefix ⟨_, has.symm⟩ ⟨_, has'.symm⟩ with ⟨bs, rfl⟩ | ⟨bs, rfl⟩
  · rw [hw, hw']
    have hsuffix : during' <:+ during := by
      have hd : .add r :: during = bs ++ .add r' :: during' := by
        rw [has, List.append_assoc] at has'
        exact List.append_cancel_left has'
      cases bs with
      | nil => exact (List.cons_eq_cons.mp hd).2 ▸ List.suffix_refl _
      | cons b bs =>
        rw [(List.cons_eq_cons.mp hd).2]
        exact ⟨bs ++ [.add r'], by rw [List.append_assoc]; rfl⟩
    exact hsuffix.filterMap _
  · -- the numbers only grow
    rw [Machine.exec_append, hu'] at hu
    have hle := nextSock_le_of_exec (hinv.exec upgradeInv_init hu') hu
    rw [hn, hn'] at hle
    exact absurd hle (not_le.mpr hij)

theorem sockets_agree_threeSockets : ∃ s, (upgradeMachine fun _ => "").exec {} (threeSockets.take 12) = some s ∧
    s.app.written 1 <:+ s.app.written 0 :=
  ⟨_, rfl, @sockets_agree (fun _ => "") (threeSockets.take 12) _ rfl "ann" 0 1 (by decide) (by decide) (by decide)⟩

end Webvirtd.App
