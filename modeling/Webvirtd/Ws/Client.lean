import Webvirtd.Ws.Connection

/-!
# Ws.Client — the loop of `websocket::client`

It reads as `websocket::connection` does, and hands each message to `on_read_` before it consumes it.
`client_delivers`: in every run the functions of `on_read_` get the messages that were received.
-/

namespace Webvirtd.Websocket

open Lib Http

/-- `websocket::client`, with what it has done. -/
structure Client (F : Type) where
  buffer : List UInt8 := []
  onConnect : Handler F := {}
  onHandshake : Handler F := {}
  onRead : Handler F := {}
  onError : Handler F := {}
  waiting : Waiting := .posted
  calls : List (Call F) := []
  started : List (List UInt8) := []

namespace Client

variable {F : Type} (s : Client F)

def startRead : Client F := { s with waiting := .read, started := s.started ++ [s.buffer] }

/-- `client_on_connect`; its handler is called as an `accept`. -/
def clientOnConnect : Client F :=
  { s with calls := s.calls ++ s.onConnect.call .accept, waiting := .accept }

/-- `client_on_handshake` -/
def clientOnHandshake (ec : ErrorCode) : Client F :=
  if ec ≠ .success then
    { s with calls := s.calls ++ s.onError.call (.error · ec), waiting := .nothing }
  else { s with calls := s.calls ++ s.onHandshake.call .handshake }.startRead

def consume (bytes : ℕ) : Client F := { s with buffer := s.buffer.drop bytes }

/-- `client_on_read`; a close is an error here. -/
def clientOnRead (ec : ErrorCode) (bytes : ℕ) : Client F :=
  if ec ≠ .success then
    { s with calls := s.calls ++ s.onError.call (.error · ec), waiting := .nothing }
  else ({ s with calls := s.calls ++ s.onRead.call (.read · s.buffer) }.consume bytes).startRead

end Client

/-- A client, with the functions that were added to its handlers. -/
def clientMachine {F : Type} (init : Client F) : Machine (Client F) (Event F) where
  init := init
  step s
    | .add _ _ => none
    | .run => if s.waiting = .posted then some s.clientOnConnect else none
    | .accepted ec => if s.waiting = .accept then some (s.clientOnHandshake ec) else none
    | .received ec bytes =>
      if s.waiting = .read then
        some ({ s with buffer := s.buffer ++ bytes }.clientOnRead ec bytes.length)
      else none

section

variable {F : Type} [DecidableEq F] {s t : Client F}

/-- What `on_read_` owes for messages. -/
def owed (h : Handler F) (f : F) (msgs : List (List UInt8)) : List (List UInt8) :=
  msgs.flatMap fun m => List.replicate (h.functions.count f) m

/-- What a step does to the deliveries, and what the next one relies on. -/
structure ClientStep (s t : Client F) (msgs : List (List UInt8)) : Prop where
  onRead : t.onRead = s.onRead
  delivered : ∀ f, deliveries f t.calls = deliveries f s.calls ++ owed s.onRead f msgs
  started : (∀ b ∈ s.started, b = []) → ∀ b ∈ t.started, b = []
  empty : t.waiting ≠ .nothing → t.buffer = []

theorem silent_call (calls : List (Call F)) (h : Handler F) {c : F → Call F}
    (hc : ∀ f g text, c g ≠ .read f text) (onRead : Handler F) (f : F) :
    deliveries f (calls ++ h.call c) = deliveries f calls ++ owed onRead f [] := by
  rw [deliveries_append, deliveries_call_of_ne h (hc f)]
  rfl

theorem clientStep_clientOnRead (hs : s.buffer = []) (ec : ErrorCode) (bytes : List UInt8) :
    ClientStep s ({ s with buffer := s.buffer ++ bytes }.clientOnRead ec bytes.length)
      (messages [(.received ec bytes : Event F)]) := by
  unfold Client.clientOnRead
  split_ifs with hec
  · have hnone : messages [(.received ec bytes : Event F)] = [] := by
      cases ec with
      | success => exact absurd rfl hec
      | _ => rfl
    rw [hnone]
    exact
      { onRead := rfl
        delivered := silent_call s.calls s.onError (c := (.error · ec)) (fun _ _ _ => nofun) s.onRead
        started := fun h => h
        empty := fun hne => absurd rfl hne }
  · obtain rfl : ec = .success := not_not.mp hec
    have hbuffer : s.buffer ++ bytes = bytes := by rw [hs, List.nil_append]
    have hconsumed : (s.buffer ++ bytes).drop bytes.length = [] := by
      rw [hbuffer, List.drop_length]
    refine
      { onRead := rfl
        delivered := fun f => ?_
        started := started_append hconsumed
        empty := fun _ => hconsumed }
    show deliveries f (s.calls ++ s.onRead.call (.read · (s.buffer ++ bytes))) = _
    rw [deliveries_append, deliveries_call_read, hbuffer]
    simp [owed, messages]

theorem clientStep_of_step {init : Client F} {e : Event F}
    (hs : s.waiting ≠ .nothing → s.buffer = []) (h : (clientMachine init).step s e = some t) :
    ClientStep s t (messages [e]) := by
  cases e with
  | add m f => cases h
  | run =>
    obtain ⟨hw, heq⟩ := Option.ite_none_right_eq_some.mp h
    cases heq
    exact
      { onRead := rfl
        delivered := silent_call s.calls s.onConnect (c := .accept) (fun _ _ _ => nofun) s.onRead
        started := fun h => h
        empty := fun _ => hs (by rw [hw]; exact nofun) }
  | accepted ec =>
    obtain ⟨hw, heq⟩ := Option.ite_none_right_eq_some.mp h
    cases heq
    have hempty : s.buffer = [] := hs (by rw [hw]; exact nofun)
    unfold Client.clientOnHandshake
    split_ifs
    · exact
        { onRead := rfl
          delivered := silent_call s.calls s.onError (c := (.error · ec)) (fun _ _ _ => nofun) s.onRead
          started := fun h => h
          empty := fun hne => absurd rfl hne }
    · exact
        { onRead := rfl
          delivered := silent_call s.calls s.onHandshake (c := .handshake) (fun _ _ _ => nofun) s.onRead
          started := started_append hempty
          empty := fun _ => hempty }
  | received ec bytes =>
    obtain ⟨hw, heq⟩ := Option.ite_none_right_eq_some.mp h
    cases heq
    exact clientStep_clientOnRead (hs (by rw [hw]; exact nofun)) ec bytes

theorem owed_append (h : Handler F) (f : F) (ms ms' : List (List UInt8)) :
    owed h f (ms ++ ms') = owed h f ms ++ owed h f ms' := List.flatMap_append

theorem clientStep_of_exec {init : Client F} {es : List (Event F)}
    (hs : s.waiting ≠ .nothing → s.buffer = []) (h : (clientMachine init).exec s es = some t) :
    ClientStep s t (messages es) := by
  induction es generalizing s with
  | nil =>
    obtain rfl : s = t := by simpa using h
    exact ⟨rfl, fun f => (List.append_nil _).symm, fun h => h, hs⟩
  | cons e es ih =>
    obtain ⟨u, hu, hut⟩ := Machine.exec_cons_eq_some.mp h
    have hfirst := clientStep_of_step hs hu
    have hrest := ih hfirst.empty hut
    have hmsgs : messages (e :: es) = messages [e] ++ messages es := List.filterMap_append (l := [e])
    exact
      { onRead := hrest.onRead.trans hfirst.onRead
        delivered := fun f => by
          rw [hrest.delivered f, hfirst.delivered f, hfirst.onRead, hmsgs, owed_append,
            List.append_assoc]
        started := fun h => hrest.started (hfirst.started h)
        empty := hrest.empty }

/-- Each function of `on_read_` is invoked with each message, in order, and with nothing else. -/
theorem client_delivers {onConnect onHandshake onRead onError : Handler F} {es : List (Event F)} :
    let init : Client F := { onConnect, onHandshake, onRead, onError }
    (clientMachine init).exec init es = some s → Delivers onRead (messages es) s.calls s.started := by
  intro init h
  have hrun : ClientStep init s (messages es) := clientStep_of_exec (fun _ => rfl) h
  exact
    { each := fun f _ => (hrun.delivered f).trans (List.nil_append _)
      drained := hrun.started fun _ hb => absurd hb List.not_mem_nil }

end

end Webvirtd.Websocket
