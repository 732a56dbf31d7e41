import Attribution.Assoc
import Attribution.Text.Utf8
import Attribution.Wire.Field

namespace Attribution.Wire

/-- A value in a form that its type names. -/
structure TypedValue where
  typeUrl : String := ""
  value : Bytes := []
  unknown : Bytes := []
  deriving DecidableEq, Repr

structure RuntimeInfo where
  name : String := ""
  options : Option TypedValue := none
  unknown : Bytes := []
  deriving DecidableEq, Repr

structure Container where
  id : String := ""
  labels : Assoc String String := []
  image : String := ""
  runtime : Option RuntimeInfo := none
  spec : Option TypedValue := none
  snapshotter : String := ""
  snapshotKey : String := ""
  sandbox : String := ""
  unknown : Bytes := []
  deriving DecidableEq, Repr

structure ListRequest where
  filters : List String := []
  unknown : Bytes := []
  deriving DecidableEq, Repr

structure ListResponse where
  containers : List Container := []
  unknown : Bytes := []
  deriving DecidableEq, Repr

/-- How deep messages and groups may nest inside a message. -/
def maxDepth : Nat := 100

/-- The text that bytes are in UTF-8. -/
def text? (bs : Bytes) : Option String :=
  match Utf8.decode bs with
  | .ok cs => some (String.ofList cs)
  | .error _ => none

def textBytes (s : String) : Bytes := Utf8.encode s.toList

/-- Reads the fields of a message onto what is known of it. -/
def readOnto {α : Type} (set : α → Field → Option α) (depth : Nat) (start : α) (bs : Bytes) :
    Option α := do
  (← fields depth bs).foldlM set start

/-- Reads a message inside another one. -/
def readInner {α : Type} (set : Nat → α → Field → Option α) (depth : Nat) (start : α)
    (bs : Bytes) : Option α :=
  match depth with
  | 0 => none
  | depth + 1 => readOnto (set depth) depth start bs

def TypedValue.set (v : TypedValue) (field : Field) : Option TypedValue :=
  match field.number, field.payload with
  | 1, .bytes bs => (text? bs).map fun s => { v with typeUrl := s }
  | 2, .bytes bs => some { v with value := bs }
  | _, _ => some { v with unknown := v.unknown ++ field.raw }

def RuntimeInfo.set (depth : Nat) (r : RuntimeInfo) (field : Field) : Option RuntimeInfo :=
  match field.number, field.payload with
  | 1, .bytes bs => (text? bs).map fun s => { r with name := s }
  | 2, .bytes bs =>
    (readInner (fun _ => TypedValue.set) depth (r.options.getD {}) bs).map fun v =>
      { r with options := some v }
  | _, _ => some { r with unknown := r.unknown ++ field.raw }

/-- One label on the wire. -/
structure LabelEntry where
  key : String := ""
  value : String := ""
  unknown : Bytes := []
  deriving DecidableEq, Repr

def LabelEntry.set (e : LabelEntry) (field : Field) : Option LabelEntry :=
  match field.number, field.payload with
  | 1, .bytes bs => (text? bs).map fun s => { e with key := s }
  | 2, .bytes bs => (text? bs).map fun s => { e with value := s }
  | _, _ => some { e with unknown := e.unknown ++ field.raw }

/-- A field that holds a text; the empty text is not written. -/
def writeText (number : Nat) (s : String) : Bytes :=
  if s = "" then [] else writeBytes number (textBytes s)

/-- A label as it is written in a table: both parts, even empty ones. -/
def writeLabel (label : String × String) : Bytes :=
  writeBytes 2 (writeBytes 1 (textBytes label.1) ++ writeBytes 2 (textBytes label.2))

/-- A label that came with fields of its own that are not declared, passed on whole. -/
def LabelEntry.write (e : LabelEntry) : Bytes :=
  writeBytes 2 (writeText 1 e.key ++ writeText 2 e.value ++ e.unknown)

/-- Adds a label; one with fields that are not declared is itself not declared. -/
def Container.setLabel (c : Container) (e : LabelEntry) : Container :=
  if e.unknown = [] then { c with labels := Assoc.set c.labels e.key e.value }
  else { c with unknown := c.unknown ++ e.write }

def Container.set (depth : Nat) (c : Container) (field : Field) : Option Container :=
  match field.number, field.payload with
  | 1, .bytes bs => (text? bs).map fun s => { c with id := s }
  | 2, .bytes bs => (readInner (fun _ => LabelEntry.set) depth {} bs).map c.setLabel
  | 3, .bytes bs => (text? bs).map fun s => { c with image := s }
  | 4, .bytes bs =>
    (readInner RuntimeInfo.set depth (c.runtime.getD {}) bs).map fun r =>
      { c with runtime := some r }
  | 5, .bytes bs =>
    (readInner (fun _ => TypedValue.set) depth (c.spec.getD {}) bs).map fun v =>
      { c with spec := some v }
  | 6, .bytes bs => (text? bs).map fun s => { c with snapshotter := s }
  | 7, .bytes bs => (text? bs).map fun s => { c with snapshotKey := s }
  | 11, .bytes bs => (text? bs).map fun s => { c with sandbox := s }
  | _, _ => some { c with unknown := c.unknown ++ field.raw }

def ListRequest.set (r : ListRequest) (field : Field) : Option ListRequest :=
  match field.number, field.payload with
  | 1, .bytes bs => (text? bs).map fun s => { r with filters := r.filters ++ [s] }
  | _, _ => some { r with unknown := r.unknown ++ field.raw }

def ListResponse.set (depth : Nat) (r : ListResponse) (field : Field) : Option ListResponse :=
  match field.number, field.payload with
  | 1, .bytes bs =>
    (readInner Container.set depth {} bs).map fun c => { r with containers := r.containers ++ [c] }
  | _, _ => some { r with unknown := r.unknown ++ field.raw }

def Container.decode (bs : Bytes) : Option Container := readOnto (Container.set maxDepth) maxDepth {} bs

def ListRequest.decode (bs : Bytes) : Option ListRequest := readOnto ListRequest.set maxDepth {} bs

def ListResponse.decode (bs : Bytes) : Option ListResponse :=
  readOnto (ListResponse.set maxDepth) maxDepth {} bs

def TypedValue.encode (v : TypedValue) : Bytes :=
  writeText 1 v.typeUrl ++ (if v.value = [] then [] else writeBytes 2 v.value) ++ v.unknown

/-- A field that holds a message, if there is one. -/
def writeInner {α : Type} (encode : α → Bytes) (number : Nat) : Option α → Bytes
  | none => []
  | some a => writeBytes number (encode a)

def RuntimeInfo.encode (r : RuntimeInfo) : Bytes :=
  writeText 1 r.name ++ writeInner TypedValue.encode 2 r.options ++ r.unknown

/-- Whether a key is written no later than another: keys go by their bytes, and one that only begins
another goes behind it. -/
def keyPrecedes : Bytes → Bytes → Bool
  | _, [] => true
  | [], _ :: _ => false
  | a :: as, b :: bs => if a = b then keyPrecedes as bs else decide (a < b)

/-- Labels in the order in which they are written. -/
def sortLabels (labels : Assoc String String) : List (String × String) :=
  labels.mergeSort fun a b => keyPrecedes (textBytes a.1) (textBytes b.1)

def Container.encode (c : Container) : Bytes :=
  writeText 1 c.id ++ (sortLabels c.labels).flatMap writeLabel ++ writeText 3 c.image ++
    writeInner RuntimeInfo.encode 4 c.runtime ++ writeInner TypedValue.encode 5 c.spec ++
    writeText 6 c.snapshotter ++ writeText 7 c.snapshotKey ++ writeText 11 c.sandbox ++ c.unknown

def ListRequest.encode (r : ListRequest) : Bytes :=
  r.filters.flatMap (fun f => writeBytes 1 (textBytes f)) ++ r.unknown

def ListResponse.encode (r : ListResponse) : Bytes :=
  r.containers.flatMap (fun c => writeBytes 1 c.encode) ++ r.unknown

end Attribution.Wire
