import Webvirtd.Data

/-!
# Views — `views::host` and `views::domains`

Every view fills in the response.  The ones about a domain receive it already looked up.
-/

namespace Webvirtd.Views

open Lib Virt Http

/-- `http::set_response(response, json, status)`. -/
def respond (L : Linked) (data : Json) (status : Status) : ViewM Unit :=
  Eff.modify fun r => r.setResponse (L.stringify data) status

namespace Host

def «show» (L : Linked) (conn : User) : ViewM Unit := do
  respond L (← Data.host L conn) .ok

def networks (L : Linked) (conn : User) : ViewM Unit := do
  respond L (← Data.networks L conn) .ok

end Host

/-- `json::parse`. -/
def parse (L : Linked) (s : String) : Except Exn Json :=
  match L.parseJson s with
  | some j => .ok j
  | none => .error ⟨.invalidArgument, "json error:\n"⟩

namespace Domains

def index (L : Linked) (conn : User) : ViewM Unit := do
  let domains ← Conn.domains conn
  respond L (.arr (← Data.simpleDomains domains)) .ok

def «show» (L : Linked) (d : DomainPtr) : ViewM Unit := do
  respond L (← Data.domain L d) .ok

def autostart (L : Linked) (d : DomainPtr) (request : Request) : ViewM Unit := do
  let enabled := request.method == .post
  Domain.setAutostart d enabled
  respond L (Json.empty.set "autostart" (.bool enabled)) .ok

/-- The change of `bootmenu` to an `os` element: the first `bootmenu` child is removed and a new one
appended. -/
def setBootmenu (enabled : String) : Xml → Xml
  | .elem n as cs =>
    .elem n as (Xml.removeChild "bootmenu" cs ++ [.elem "bootmenu" [("enable", enabled)] []])
  | x => x

/-- The document with the `os` element of its domain changed. -/
def setOs (f : Xml → Xml) (doc : List Xml) : List Xml :=
  Xml.updateChild "domain"
    (fun
      | .elem n as cs => .elem n as (Xml.updateChild "os" f cs)
      | x => x)
    doc

/-- `doc.child("domain").child("os")`. -/
def osOf (doc : List Xml) : Option Xml :=
  (Xml.child "domain" doc).bind fun c => Xml.child "os" c.children

def bootmenu (L : Linked) (conn : User) (d : DomainPtr) (request : Request) : ViewM Unit := do
  let doc ← Domain.xmlDocument d L
  let enabled := if request.method = .post then "yes" else "no"
  let doc := setOs (setBootmenu enabled) doc
  match ← perform (.virDomainDefineXML conn (cStr (L.saveXml doc))) with
  | none => respond L (Json.error "Unable to replace domain XML") .internalServerError
  | some _ => respond L (Json.ofNode (osOf doc)) .ok

/-- `if (value != current)`: store the value and report it. -/
def replaceMetadata (d : DomainPtr) (type : MetadataType) (key current value : String)
    (output : Json) : ViewM Json :=
  if value ≠ current then do
    let _ ← Domain.setMetadata d type value
    return output.set key (.str value)
  else pure output

def metadata (L : Linked) (d : DomainPtr) (request : Request) : ViewM Unit := do
  match parse L request.body with
  | .error _ => respond L (Json.error "Invalid JSON input") .badRequest
  | .ok data =>
    let output := Json.empty
    let currentTitle ← Domain.metadata d .title
    let title ← ofExcept ((data.getD "title" (.str currentTitle)).bind Json.asString)
    let output ← replaceMetadata d .title "title" currentTitle title output
    let currentDesc ← Domain.metadata d .description
    let desc ← ofExcept ((data.getD "description" (.str currentDesc)).bind Json.asString)
    let output ← replaceMetadata d .description "description" currentDesc desc output
    if output.isEmpty then Eff.modify fun r => { r with result := .notModified }
    let r ← Eff.get
    respond L output r.result

def start (L : Linked) (d : DomainPtr) : ViewM Unit := do
  if !(← Domain.start d) then
    respond L (Json.error "Unable to start domain") .badRequest
  else
    respond L (← Data.simpleDomain d) .created

def shutdown (L : Linked) (T : Timeouts) (d : DomainPtr) : ViewM Unit := do
  let ok ← Eff.tryCatch (some <$> Domain.shutdown d T) fun e =>
    if e.caughtBy .outOfRange then pure none else Eff.throw e
  match ok with
  | none => respond L (Json.error "Shutdown operation timed out") .gatewayTimeout
  | some false => respond L (Json.error "Unable to shutdown domain") .badRequest
  | some true => respond L (← Data.simpleDomain d) .ok

end Domains

/-! ## How views end -/

theorem made_respond {A : Call → Prop} {F : Failure → Prop} (L : Linked) (data : Json)
    (status : Status) : ViewM.MadeOf A F (respond L data status) := .modify _

namespace Host

theorem reads_show (L : Linked) (conn : User) : Reads (Host.show L conn) :=
  .bind (Data.reads_host L conn) fun _ => made_respond L _ _

theorem reads_networks (L : Linked) (conn : User) : Reads (Host.networks L conn) :=
  .bind (Data.reads_networks L conn) fun _ => made_respond L _ _

end Host

namespace Domains

theorem reads_index (L : Linked) (conn : User) : Reads (index L conn) :=
  .bind (reads_perform rfl) fun ds => .bind (Data.reads_simpleDomains ds) fun _ => made_respond L _ _

theorem reads_show (L : Linked) (d : DomainPtr) : Reads (Domains.show L d) :=
  .bind (Data.reads_domain L d) fun _ => made_respond L _ _

theorem ends_autostart (L : Linked) (d : DomainPtr) (request : Request) :
    Ends (autostart L d request) :=
  .bind (.bind (ends_perform _) fun _ => .pure ()) fun _ => made_respond L _ _

theorem ends_bootmenu (L : Linked) (conn : User) (d : DomainPtr) (request : Request) :
    Ends (bootmenu L conn d request) := by
  refine .bind (reads_xmlDocument d L).ends fun doc => .bind (ends_perform _) fun redefined => ?_
  cases redefined with
  | none => exact made_respond L _ _
  | some _ => exact made_respond L _ _

theorem ends_replaceMetadata (d : DomainPtr) (type : MetadataType) (key current value : String)
    (output : Json) : Ends (replaceMetadata d type key current value output) := by
  unfold replaceMetadata
  split_ifs
  · exact .bind (.bind (ends_perform _) fun _ => .pure _) fun _ => .pure _
  · exact .pure _

theorem ends_metadata (L : Linked) (d : DomainPtr) (request : Request) :
    Ends (metadata L d request) := by
  unfold metadata
  cases parse L request.body with
  | error e => exact made_respond L _ _
  | ok data =>
    refine .bind (ends_perform _) fun currentTitle => .bind (ends_ofExcept _) fun title => ?_
    refine .bind (ends_replaceMetadata d _ _ _ _ _) fun output => ?_
    refine .bind (ends_perform _) fun currentDesc => .bind (ends_ofExcept _) fun desc => ?_
    refine .bind (ends_replaceMetadata d _ _ _ _ _) fun output => ?_
    refine Eff.MadeOf.ite ?_ ?_
    · exact .bind (.modify _) fun _ => .bind .get fun r => made_respond L _ _
    · exact .bind .get fun r => made_respond L _ _

theorem ends_start (L : Linked) (d : DomainPtr) : Ends (start L d) := by
  refine .bind (.bind (ends_perform _) fun _ => .pure _) fun started => ?_
  show Ends (if _ then _ else _)
  split_ifs
  · exact made_respond L _ _
  · exact .bind (Data.reads_simpleDomain d).ends fun _ => made_respond L _ _

theorem made_shutdown (L : Linked) (T : Timeouts) (d : DomainPtr) :
    ViewM.MadeOf (fun _ => True) (fun _ => True) (shutdown L T d) := by
  refine .bind (.tryCatch (.map _ (Virt.made_shutdown d T)) (fun e => ?_) fun e he => ?_) fun ok => ?_
  · exact .ite (.pure _) (.throw trivial)
  · refine if_neg ?_
    cases e with
    | exn e =>
      obtain ⟨cls, what⟩ := e
      cases cls with
      | outOfRange => cases he
      | _ => exact Bool.false_ne_true
    | _ => cases he
  · match ok with
    | none => exact made_respond L _ _
    | some false => exact made_respond L _ _
    | some true =>
      refine .bind ?_ fun _ => made_respond L _ _
      exact Eff.MadeOf.mono (fun _ _ h => h) (fun _ _ => trivial) (Data.reads_simpleDomain d).ends

/-- The view terminates, since `domain::shutdown` does. -/
theorem shutdown_terminates {σ : Type} {answer : σ → (o : Op) → Op.Res o × σ} {time : σ → ℚ}
    (hc : Clock answer time) (L : Linked) (T : Timeouts) (d : DomainPtr) :
    Eff.Triple answer (fun _ => True) (shutdown L T d) (fun _ _ => True) (fun e _ => e.IsExn) := by
  refine .bind (Q := fun _ _ => True) (.tryCatch (F := fun e _ => e.IsExn) ?_ fun e => ?_)
    fun ok => ?_
  · exact .bind (Virt.shutdown_terminates hc d T) fun _ => .pure fun _ _ => trivial
  · exact .ite (fun _ => .pure fun _ _ => trivial) fun _ => .throw fun _ h => h
  · match ok with
    | none => exact ends_triple (made_respond L _ _)
    | some false => exact ends_triple (made_respond L _ _)
    | some true =>
      exact .bind (ends_triple (Data.reads_simpleDomain d).ends) fun _ =>
        ends_triple (made_respond L _ _)

end Domains

end Webvirtd.Views
