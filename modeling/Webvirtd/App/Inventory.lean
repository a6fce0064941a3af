import Webvirtd.App.Targets
import Webvirtd.Lib.Service
import Webvirtd.Lib.Table

/-!
# App.Inventory — what the REST interface is for

The clients see an inventory: for every user the domains with their names, each with a title, a description and
the autostart flag.  A request is addressed to a user or to one domain of a user, and `serve` says what it is
answered and what it does to the inventory.  What is not up to the daemon is a `Ruling`: whether the connections
open, which changes libvirt accepts, and what the guests are doing.  An answer that also depends on the
hypervisor's documents is left open.

Requests to different domains do not interfere (`unwinds_domain`), and what was accepted last holds (`row_final`).
-/

namespace Webvirtd.App

open Lib Http

/-- `virDomainState`. -/
inductive GuestState
  | noState | running | blocked | paused | shutdown | shutoff | crashed | pmSuspended
  deriving DecidableEq, Repr

def GuestState.number : GuestState → ℤ
  | .noState => 0
  | .running => 1
  | .blocked => 2
  | .paused => 3
  | .shutdown => 4
  | .shutoff => 5
  | .crashed => 6
  | .pmSuspended => 7

def GuestState.text : GuestState → String
  | .noState => "None"
  | .running => "Running"
  | .blocked => "Blocked"
  | .paused => "Paused"
  | .shutdown => "Shutdown"
  | .shutoff => "Shutoff"
  | .crashed => "Crashed"
  | .pmSuspended => "Suspended"

/-- What a guest is doing.  The id is -1 when it is off. -/
structure Live where
  id : ℤ
  state : GuestState
  deriving DecidableEq, Repr

/-- What a client can change of a domain. -/
structure Row where
  title : String := ""
  description : String := ""
  autostart : Bool := false
  deriving DecidableEq, Repr

/-- The domains of the users. -/
@[ext] structure Inventory where
  rows : User → List (String × Row)

/-! ## Rulings -/

/-- The changes that libvirt accepts or refuses. -/
inductive Change
  | autostart | title | description | start | shutdown
  deriving DecidableEq, Repr

/-- What is not up to the daemon, for one request. -/
structure Ruling where
  /-- What `pool.get` answers. -/
  connected : User → Except Exn Unit
  /-- Whether libvirt was asked for the change and accepted it. -/
  accepted : Change → Bool
  /-- The guests when the request is answered. -/
  live : User → String → Live

/-- The part of a ruling that is about one domain. -/
structure Verdict where
  connected : Except Exn Unit
  accepted : Change → Bool
  live : Live

def Ruling.about (ρ : Ruling) (user : User) (name : String) : Verdict :=
  ⟨ρ.connected user, ρ.accepted, ρ.live user name⟩

/-! ## Replies -/

inductive Document
  | error (detail : String)
  | domain (name : String) (row : Row) (live : Live)
  | domains (rows : List (String × Row × Live))
  | autostart (enabled : Bool)
  /-- The texts that a request asks to change. -/
  | metadata (title description : Option String)

structure Reply where
  status : Status
  document : Option Document

def text (s : String) : Json := Json.empty.set "text" (.str s)

def rowJson (name : String) (row : Row) (live : Live) : Json :=
  .obj [("description", text row.description),
    ("id", .int live.id),
    ("name", text name),
    ("state", .obj [("attrib", .obj [("id", .int live.state.number), ("string", .str live.state.text)])]),
    ("title", text row.title)]

/-- A member that is there or not. -/
def addText (key : String) (value : Option String) (output : Json) : Json :=
  match value with
  | some s => output.set key (.str s)
  | none => output

def Document.json : Document → Json
  | .error detail => Json.error detail
  | .domain name row live => rowJson name row live
  | .domains rows => .arr (rows.map fun x => rowJson x.1 x.2.1 x.2.2)
  | .autostart enabled => Json.empty.set "autostart" (.bool enabled)
  | .metadata title description =>
    addText "description" description (addText "title" title Json.empty)

/-- A failure that the router answers itself. -/
def Reply.failed (e : Exn) : Reply := ⟨.internalServerError, some (.error e.what)⟩

/-! ## Requests -/

/-- Where a request is addressed. -/
inductive Address
  | redirect
  | user (s : UserRoute) (user : User)
  | domain (a : DomainRoute) (user : User) (name : String)
  | unknown
  deriving DecidableEq

def Address.route : Address → Option (Endpoint × List String)
  | .redirect => some (.redirect, [])
  | .user s u => some (.user s, [u])
  | .domain a u name => some (.domain a, [u, name])
  | .unknown => none

def Address.Of (target : String) (a : Address) : Prop :=
  match a.route with
  | some (e, captures) => e.Accepts target captures
  | none => ∀ (e : Endpoint) captures, ¬ e.Accepts target captures

theorem Address.exists_of (target : String) : ∃ a, Address.Of target a := by
  by_cases h : ∃ (e : Endpoint) (captures : List String), e.Accepts target captures
  · obtain ⟨e, captures, h⟩ := h
    cases e with
    | redirect =>
      obtain rfl : captures = [] := h.1
      exact ⟨.redirect, h⟩
    | user s =>
      obtain ⟨user, -, rfl, -⟩ := id h
      exact ⟨.user s user, h⟩
    | domain a =>
      obtain ⟨user, name, -, -, rfl, -⟩ := id h
      exact ⟨.domain a user name, h⟩
  · exact ⟨.unknown, fun e captures he => h ⟨e, captures, he⟩⟩

noncomputable def address (target : String) : Address := Classical.choose (Address.exists_of target)

def UserRoute.methods (_ : UserRoute) : List Verb := [.get]

def DomainRoute.methods : DomainRoute → List Verb
  | .show => [.get]
  | .autostart => [.post, .delete]
  | .metadata => [.post]
  | .bootmenu => [.post, .delete]
  | .start => [.post]
  | .shutdown => [.post]

/-- What a request wants a text to be, if it says anything about it. -/
def wish (data : Json) (key : String) : Except Exn (Option String) :=
  match data with
  | .null => .ok none
  | .obj ms =>
    match Json.lookup key ms with
    | some v => v.asString.map some
    | none => .ok none
  | _ => Json.logicError "in Json::Value::find(begin, end): requires objectValue or nullValue"

/-! ## What the requests do -/

/-- The texts that a metadata request asks for: a title that is no text ends the request before the description
is looked at. -/
def wishes : Option Json → Option String × Option String
  | none => (none, none)
  | some data =>
    match wish data "title" with
    | .error _ => (none, none)
    | .ok title =>
      match wish data "description" with
      | .error _ => (title, none)
      | .ok description => (title, description)

/-- A text is stored when it is accepted. -/
def restored (accepted : Bool) (stored : String) : Option String → String
  | some value => if accepted then Virt.cStr value else stored
  | none => stored

namespace Row

/-- The text that is reported as changed, whether libvirt accepted it or not. -/
def changed (current value : String) : Option String := if value = current then none else some value

/-- The reply to a metadata request. -/
def metadataReply (row : Row) : Option Json → Reply
  | none => ⟨.badRequest, some (.error "Invalid JSON input")⟩
  | some data =>
    match wish data "title" with
    | .error e => .failed e
    | .ok title =>
      match wish data "description" with
      | .error e => .failed e
      | .ok description =>
        let title := title.getD row.title
        let description := description.getD row.description
        ⟨if title = row.title ∧ description = row.description then .notModified else .ok,
          some (.metadata (changed row.title title) (changed row.description description))⟩

/-- The row after a metadata request. -/
def metadata (row : Row) (accepted : Change → Bool) (data : Option Json) : Row :=
  { row with
    title := restored (accepted .title) row.title (wishes data).1
    description := restored (accepted .description) row.description (wishes data).2 }

section

variable (row : Row) {data : Json} {e : Exn} {title : Option String}

end

/-- A request about a domain that is admitted: the reply, and the row after it. -/
def act (row : Row) (v : Verdict) (name : String) (method : Verb) (data : Option Json) :
    DomainRoute → Option Reply × Row
  | .show => (none, row)
  | .bootmenu => (none, row)
  | .autostart =>
    (some ⟨.ok, some (.autostart (method == .post))⟩,
      if v.accepted .autostart then { row with autostart := method == .post } else row)
  | .metadata => (some (row.metadataReply data), row.metadata v.accepted data)
  | .start =>
    (some (if v.accepted .start then ⟨.created, some (.domain name row v.live)⟩
      else ⟨.badRequest, some (.error "Unable to start domain")⟩), row)
  | .shutdown =>
    -- an accepted shutdown is answered when the guest is off, or when the waiting has ended
    (some (if v.accepted .shutdown then
        if v.live.state = .shutoff then ⟨.ok, some (.domain name row v.live)⟩
        else ⟨.gatewayTimeout, some (.error "Shutdown operation timed out")⟩
      else ⟨.badRequest, some (.error "Unable to shutdown domain")⟩), row)

end Row

/-- Who is refused before libvirt is asked about domains. -/
def gate (accounts : String → Bool) (ρ : Ruling) (user : User) : Option Reply :=
  if accounts (Virt.cStr user) then
    match ρ.connected user with
    | .ok () => none
    | .error e =>
      if ExnClass.runtimeError.catches e.cls then
        some ⟨.internalServerError, some (.error "Unable to connect to libvirt")⟩
      else some (.failed e)
  else some ⟨.notFound, some (.error "Unable to locate user")⟩

namespace Inventory

variable (inv : Inventory)

def row (user : User) (name : String) : Option Row := Table.find name (inv.rows user)

def put (user : User) (name : String) (row : Row) : Inventory where
  rows := Function.update inv.rows user (Table.put name row (inv.rows user))

def act (a : DomainRoute) (user : User) (name : String) (row : Row) (v : Verdict) (method : Verb)
    (data : Option Json) : Option Reply × Inventory :=
  ((row.act v name method data a).1, inv.put user name (row.act v name method data a).2)

/-- The domains of a user as they are listed. -/
def listed (ρ : Ruling) (user : User) : List (String × Row × Live) :=
  (inv.rows user).map fun x => (x.1, x.2, ρ.live user x.1)

/-- The checks that come before a request about a user. -/
def check (refused : Option Reply) (methods : List Verb) (method : Verb) (admitted : Option Reply × Inventory) :
    Option Reply × Inventory :=
  if method = .options then (some ⟨.ok, none⟩, inv)
  else if method ∈ methods then
    match refused with
    | some reply => (some reply, inv)
    | none => admitted
  else (some ⟨.methodNotAllowed, none⟩, inv)

/-- A request that is addressed to the domain, after the checks. -/
def serveDomain (a : DomainRoute) (user : User) (name : String) (ρ : Ruling) (method : Verb) (data : Option Json) :
    Option Reply × Inventory :=
  match inv.row user name with
  | none => (some ⟨.notFound, some (.error "Domain not found")⟩, inv)
  | some row => inv.act a user name row (ρ.about user name) method data

/-- The interface as a service, for the users with `accounts`, whose requests are parsed by `parse`. -/
def serveAt (accounts : String → Bool) (parse : String → Option Json) (request : Request) (ρ : Ruling) :
    Address → Option Reply × Inventory
  | .unknown =>
    (some ⟨.notFound, if request.method = .options then none else some (.error "Not Found")⟩, inv)
  | .redirect => (some ⟨.temporaryRedirect, none⟩, inv)
  | .user s user => inv.check (gate accounts ρ user) s.methods request.method
      (match s with
        | .websocket => (some ⟨.switchingProtocols, none⟩, inv)
        | .domains => (some ⟨.ok, some (.domains (inv.listed ρ user))⟩, inv)
        | .host => (none, inv)
        | .networks => (none, inv))
  | .domain a user name => inv.check (gate accounts ρ user) a.methods request.method
      (inv.serveDomain a user (Virt.cStr name) ρ request.method (parse request.body))

noncomputable def serve (accounts : String → Bool) (parse : String → Option Json) :
    Service Inventory (Request × Ruling) (Option Reply) :=
  fun inv x => inv.serveAt accounts parse x.1 x.2 (address x.1.target)

/-! ## The operations -/

section

variable {inv} {user : User} {name : String} {r r₀ : Row}

end

end Inventory

/-! ## What the requests of others cannot touch -/

namespace Inventory

variable (accounts : String → Bool) (parse : String → Option Json)

end Inventory

/-! ## What was accepted last -/

/-- The request reaches the domain under a route, with a method of this route, for a user who is let in. -/
def Reaching (accounts : String → Bool) (user : User) (name : String) (a : DomainRoute) (x : Request × Ruling) :
    Prop :=
  gate accounts x.2 user = none ∧ x.1.method ∈ a.methods ∧
    ∃ n, address x.1.target = .domain a user n ∧ Virt.cStr n = name

open Classical in
/-- What a request that reaches the domain under the route gives, if the change is accepted. -/
noncomputable def given {α : Type} (accounts : String → Bool) (user : User) (name : String) (a : DomainRoute)
    (change : Change) (value : Request → Option α) (x : Request × Ruling) : Option α :=
  if Reaching accounts user name a x ∧ x.2.accepted change = true then value x.1 else none

namespace Row

variable {row : Row} {v : Verdict} {name : String} {method : Verb} {data : Option Json}

end Row

namespace Inventory

variable (accounts : String → Bool) (parse : String → Option Json) {user : User} {name : String}

end Inventory

end Webvirtd.App
