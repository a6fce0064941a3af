import Webvirtd.Util.Json

/-!
# Http.Types — requests, responses, `http::set_response`, and what the linked libraries provide
-/

namespace Webvirtd

namespace Http

/-- `beast::http::verb`; `other` keeps the text of a verb that no route names. -/
inductive Verb
  | get | post | delete | options
  | other (text : String)
  deriving DecidableEq, Repr

/-- `ss << method`. -/
def Verb.text : Verb → String
  | .get => "GET"
  | .post => "POST"
  | .delete => "DELETE"
  | .options => "OPTIONS"
  | .other text => text

/-- The `beast::http::status` values that the program sends. -/
inductive Status
  | switchingProtocols | ok | created | notModified | temporaryRedirect
  | badRequest | notFound | methodNotAllowed | internalServerError | gatewayTimeout
  deriving DecidableEq, Repr

def Status.code : Status → ℕ
  | .switchingProtocols => 101
  | .ok => 200
  | .created => 201
  | .notModified => 304
  | .temporaryRedirect => 307
  | .badRequest => 400
  | .notFound => 404
  | .methodNotAllowed => 405
  | .internalServerError => 500
  | .gatewayTimeout => 504

/-- The header fields that the program sets. -/
inductive Field
  | allow | connection | contentLength | contentType | location | server
  deriving DecidableEq, Repr

structure Request where
  method : Verb
  target : String
  /-- `major * 10 + minor`. -/
  version : ℕ := 11
  fields : List (String × String) := []
  body : String := ""
  deriving DecidableEq, Repr

/-- The defaults are those of a default constructed `http::response`. -/
structure Response where
  version : ℕ := 11
  result : Status := .ok
  fields : List (Field × String) := []
  body : String := ""
  deriving DecidableEq, Repr

namespace Response

def erase (r : Response) (f : Field) : Response :=
  { r with fields := r.fields.filter fun x => x.1 != f }

/-- `response.set(f, value)`. -/
def set (r : Response) (f : Field) (value : String) : Response :=
  { r with fields := (r.erase f).fields ++ [(f, value)] }

def field (r : Response) (f : Field) : Option String :=
  (r.fields.find? fun x => x.1 = f).map (·.2)

theorem field_erase_self (r : Response) (f : Field) : (r.erase f).field f = none := by
  unfold erase field
  rw [List.find?_filter, Option.map_eq_none_iff, List.find?_eq_none]
  rintro ⟨g, v⟩ -
  by_cases hg : g = f <;> simp [hg]

theorem field_erase_of_ne {f g : Field} (h : f ≠ g) (r : Response) :
    (r.erase f).field g = r.field g := by
  unfold erase field
  rw [List.find?_filter]
  refine congrArg (Option.map _) (congrArg (fun p => r.fields.find? p) (funext fun x => ?_))
  by_cases hx : x.1 = g
  · simp [hx, h.symm]
  · simp [hx]

@[simp] theorem field_set_self (r : Response) (f : Field) (v : String) :
    (r.set f v).field f = some v := by
  have hnone := field_erase_self r f
  unfold field at hnone ⊢
  rw [Option.map_eq_none_iff] at hnone
  unfold set
  rw [List.find?_append, hnone]
  simp

theorem field_set_of_ne {f g : Field} (h : f ≠ g) (r : Response) (v : String) :
    (r.set f v).field g = r.field g := by
  rw [← field_erase_of_ne h r]
  unfold set field
  rw [List.find?_append]
  have hnone : [(f, v)].find? (fun x => x.1 = g) = none := by simp [h]
  rw [hnone, Option.or_none]

/-- `response.content_length(n)`. -/
def setContentLength (r : Response) (n : ℕ) : Response := r.set .contentLength (toString n)

/-- `response.keep_alive(false)`. -/
def closeAfter (r : Response) : Response :=
  if r.version < 11 then r.erase .connection else r.set .connection "close"

/-- `http::set_response`: the text is appended to the body. -/
def setResponse (r : Response) (data : String) (status : Status) : Response :=
  let r' := { r with result := status, body := r.body ++ data }
  r'.setContentLength r'.body.utf8ByteSize

theorem field_setResponse {f : Field} (h : .contentLength ≠ f) (r : Response) (data : String)
    (st : Status) : (r.setResponse data st).field f = r.field f :=
  field_set_of_ne h _ _

end Response

end Http

/-- The functions of the linked libraries that the program calls for their results only. -/
structure Linked where
  /-- `beast::websocket::is_upgrade` -/
  isUpgrade : Http.Request → Bool
  /-- `BOOST_BEAST_VERSION_STRING` -/
  beastVersion : String
  /-- `Json::FastWriter::write` -/
  stringify : Json → String
  /-- `Json::Reader::parse`; `none` when it fails -/
  parseJson : String → Option Json
  /-- `pugi::xml_document::load_buffer` -/
  loadXml : String → List Xml
  /-- `pugi::xml_document::save` -/
  saveXml : List Xml → String
  /-- `strerror` -/
  strerror : ℤ → String

end Webvirtd
