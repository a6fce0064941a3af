import Webvirtd.Exception

/-!
# Util.Json — JSON values, XML trees, and `json::xml_to_json`

`Json` is `Json::Value` as far as the program looks at it.  The members of an object are kept sorted by
key, as jsoncpp keeps them, so that equal objects are equal terms.  Accessors that jsoncpp makes throw
on a value of the wrong type return `Except Exn`.

`Xml` is a parsed document: elements with attributes in document order, and text nodes.
-/

namespace Webvirtd

/-- `operator<` on the code points of two texts. -/
def lessChars : List Char → List Char → Bool
  | _, [] => false
  | [], _ :: _ => true
  | a :: as, b :: bs => if a = b then lessChars as bs else a.toNat.blt b.toNat

/-- The order of the keys of a `std::map` and of a JSON object. -/
def stringLess (a b : String) : Bool := lessChars a.toList b.toList

/-- `real` carries the text that `asString` prints for a double. -/
inductive Json
  | null
  | bool (b : Bool)
  | int (i : ℤ)
  | real (text : String)
  | str (s : String)
  | arr (xs : List Json)
  | obj (members : List (String × Json))

abbrev Members := List (String × Json)

namespace Json

/-- A default constructed `Json::Value(Json::objectValue)`. -/
def empty : Json := .obj []

def logicError {α : Type} (what : String) : Except Exn α := .error ⟨.jsonLogicError, what⟩

def lookup (k : String) : Members → Option Json
  | [] => none
  | (k', v) :: ms => if k' = k then some v else lookup k ms

/-- `object[k] = v`. -/
def insert (k : String) (v : Json) : Members → Members
  | [] => [(k, v)]
  | (k', v') :: ms =>
    if k = k' then (k, v) :: ms
    else if stringLess k k' then (k, v) :: (k', v') :: ms
    else (k', v') :: insert k v ms

/-- `value[k] = v` on a value known to be an object. -/
def set (j : Json) (k : String) (v : Json) : Json :=
  match j with
  | .obj ms => .obj (insert k v ms)
  | j => j

/-- `value.isMember(k)`. -/
def isMember (j : Json) (k : String) : Except Exn Bool :=
  match j with
  | .null => .ok false
  | .obj ms => .ok (lookup k ms).isSome
  | _ => logicError "in Json::Value::find(begin, end): requires objectValue or nullValue"

/-- The reference `value[k]`: the value, in which the member now exists, and the member. -/
def index (j : Json) (k : String) : Except Exn (Json × Json) :=
  match j with
  | .null => .ok (.obj [(k, .null)], .null)
  | .obj ms =>
    match lookup k ms with
    | some v => .ok (.obj ms, v)
    | none => .ok (.obj (insert k .null ms), .null)
  | _ => logicError "in Json::Value::resolveReference(key, end): requires objectValue"

/-- The reference `value[k1][k2]..`: the value with all of the path created, and its end. -/
def path : Json → List String → Except Exn (Json × Json)
  | j, [] => .ok (j, j)
  | j, k :: ks => do
    let (j', v) ← j.index k
    let (v', x) ← path v ks
    return (j'.set k v', x)

/-- `value[k1][k2].. = x`. -/
def assign : Json → List String → Json → Except Exn Json
  | _, [], x => .ok x
  | j, k :: ks, x => do
    let (j', v) ← j.index k
    let v' ← assign v ks x
    return j'.set k v'

/-- `value.get(k, fallback)`. -/
def getD (j : Json) (k : String) (fallback : Json) : Except Exn Json :=
  match j with
  | .null => .ok fallback
  | .obj ms => .ok ((lookup k ms).getD fallback)
  | _ => logicError "in Json::Value::find(begin, end): requires objectValue or nullValue"

def asString : Json → Except Exn String
  | .null => .ok ""
  | .str s => .ok s
  | .bool b => .ok (if b then "true" else "false")
  | .int i => .ok (toString i)
  | .real text => .ok text
  | .arr _ => logicError "Type is not convertible to string"
  | .obj _ => logicError "Type is not convertible to string"

def isArray : Json → Bool
  | .arr _ => true
  | _ => false

def isObject : Json → Bool
  | .obj _ => true
  | _ => false

/-- `value.empty()` of an object. -/
def isEmpty : Json → Bool
  | .obj [] => true
  | _ => false

/-- `json::error`. -/
def error (detail : String) : Json := .obj [("detail", .str detail)]

end Json

/-! ## XML -/

inductive Xml
  | elem (name : String) (attributes : List (String × String)) (children : List Xml)
  | text (cdata : Bool) (value : String)

namespace Xml

/-- `node.name()`: text nodes have none. -/
def name : Xml → String
  | .elem name _ _ => name
  | .text _ _ => ""

def children : Xml → List Xml
  | .elem _ _ cs => cs
  | .text _ _ => []

/-- `node.child(name)` over the children of a node. -/
def child (name : String) : List Xml → Option Xml
  | [] => none
  | .elem n as cs :: xs => if n = name then some (.elem n as cs) else child name xs
  | .text _ _ :: xs => child name xs

/-- `node.text().as_string()` over the children of a node. -/
def textOf : List Xml → String
  | [] => ""
  | .elem _ _ _ :: xs => textOf xs
  | .text _ v :: _ => v

/-- The first child named `name`, changed in place by `f`. -/
def updateChild (name : String) (f : Xml → Xml) : List Xml → List Xml
  | [] => []
  | .elem n as cs :: xs =>
    if n = name then f (.elem n as cs) :: xs else .elem n as cs :: updateChild name f xs
  | .text c v :: xs => .text c v :: updateChild name f xs

/-- `node.remove_child(name)`: the first one. -/
def removeChild (name : String) : List Xml → List Xml
  | [] => []
  | .elem n as cs :: xs => if n = name then xs else .elem n as cs :: removeChild name xs
  | .text c v :: xs => .text c v :: removeChild name xs

end Xml

namespace Json

/-- `attributes[attr.name()] = attr.value()` for every attribute. -/
def ofAttributes (as : List (String × String)) : Members :=
  as.foldl (fun ms a => insert a.1 (.str a.2) ms) []

/-- The members that `xml_to_json` starts from: `attrib` and `text`. -/
def header (as : List (String × String)) (cs : List Xml) : Members :=
  let attributes := ofAttributes as
  let data := if attributes.length = 0 then [] else insert "attrib" (.obj attributes) []
  let text := Xml.textOf cs
  if text.length = 0 then data else insert "text" (.str text) data

/-- A converted child is stored: a second one of the same name makes the member an array. -/
def addChild (name : String) (converted : Json) (data : Members) : Members :=
  if name = "" then data
  else match lookup name data with
    | none => insert name converted data
    | some (.arr xs) => insert name (.arr (xs ++ [converted])) data
    | some current => insert name (.arr [current, converted]) data

mutual

/-- `json::xml_to_json` of a node. -/
def xmlToJson : Xml → Json
  | .text _ _ => .obj []
  | .elem _ as cs => .obj (addChildren cs (header as cs))

/-- Its loop over the children. -/
def addChildren : List Xml → Members → Members
  | [], data => data
  | c :: cs, data => addChildren cs (addChild c.name (xmlToJson c) data)

end

/-- `json::xml_to_json` of a node handle, which may be null. -/
def ofNode : Option Xml → Json
  | some x => xmlToJson x
  | none => .obj []

/-! ## Texts -/

/-- A text without characters to be escaped. -/
def quote (s : String) : String := "\"" ++ s ++ "\""

mutual

/-- What `Json::FastWriter` writes before the end of the line, when no text needs escapes. -/
def write : Json → String
  | .null => "null"
  | .bool b => if b then "true" else "false"
  | .int i => toString i
  | .real text => text
  | .str s => quote s
  | .arr [] => "[]"
  | .arr (x :: xs) => "[" ++ write x ++ writeItems xs ++ "]"
  | .obj [] => "\x7b\x7d"
  | .obj (m :: ms) => "\x7b" ++ writeMember m ++ writeMembers ms ++ "\x7d"

def writeItems : List Json → String
  | [] => ""
  | x :: xs => "," ++ write x ++ writeItems xs

def writeMember : String × Json → String
  | (k, v) => quote k ++ ":" ++ write v

def writeMembers : List (String × Json) → String
  | [] => ""
  | m :: ms => "," ++ writeMember m ++ writeMembers ms

end

theorem length_writeMembers_insert {k : String} {ms : Members} (h : lookup k ms = none) (v : Json) :
    (writeMembers ms).length < (writeMembers (insert k v ms)).length := by
  have hcomma : ",".length = 1 := rfl
  induction ms with
  | nil =>
    simp only [insert, writeMembers, String.length_append, String.length_empty]
    omega
  | cons m ms ih =>
    obtain ⟨k', v'⟩ := m
    unfold lookup at h
    unfold insert
    split_ifs at h with hk
    rw [if_neg (Ne.symm hk)]
    split_ifs
    · simp only [writeMembers, String.length_append]
      omega
    · have := ih h
      simp only [writeMembers, String.length_append]
      omega

theorem length_writeMembers_lt {v v' : Json} (h : v.write.length < v'.write.length) (k : String) (ms : Members) :
    (writeMembers (insert k v ms)).length < (writeMembers (insert k v' ms)).length := by
  induction ms with
  | nil =>
    simp only [insert, writeMembers, writeMember, String.length_append]
    omega
  | cons m ms ih =>
    obtain ⟨k', v''⟩ := m
    unfold insert
    split_ifs
    · simp only [writeMembers, writeMember, String.length_append]
      omega
    · simp only [writeMembers, writeMember, String.length_append]
      omega
    · simp only [writeMembers, String.length_append]
      omega

/-- A longer member makes the text of an object longer. -/
theorem length_write_lt {v v' : Json} (h : v.write.length < v'.write.length) (k : String) (ms : Members) :
    (write (.obj (insert k v ms))).length < (write (.obj (insert k v' ms))).length := by
  cases ms with
  | nil =>
    simp only [insert, write, writeMember, writeMembers, String.length_append]
    omega
  | cons m ms =>
    obtain ⟨k', v''⟩ := m
    have hrest := length_writeMembers_lt h k ms
    unfold insert
    split_ifs
    · simp only [write, writeMember, String.length_append]
      omega
    · simp only [write, writeMember, String.length_append]
      omega
    · simp only [write, String.length_append]
      omega

/-- A member more makes the text of an object longer. -/
theorem length_write_insert {k : String} {ms : Members} (h : lookup k ms = none) (v : Json) :
    (write (.obj ms)).length < (write (.obj (insert k v ms))).length := by
  have hcomma : ",".length = 1 := rfl
  have hcolon : ":".length = 1 := rfl
  have hopen : "\x7b".length = 1 := rfl
  have hclose : "\x7d".length = 1 := rfl
  have hempty : "\x7b\x7d".length = 2 := rfl
  cases ms with
  | nil =>
    simp only [insert, write, writeMember, writeMembers, String.length_append, String.length_empty]
    omega
  | cons m ms =>
    obtain ⟨k', v'⟩ := m
    unfold lookup at h
    unfold insert
    split_ifs at h with hk
    rw [if_neg (Ne.symm hk)]
    split_ifs
    · simp only [write, writeMembers, String.length_append]
      omega
    · have := length_writeMembers_insert h v
      simp only [write, String.length_append]
      omega

end Json

end Webvirtd
