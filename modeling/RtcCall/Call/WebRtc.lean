import RtcCall.Session.Contents

/-! What a Call reads of WebRTC and of JsonCpp: a description by the text it renders
to, a candidate by its three parts, JSON values. What parses and renders them, and
what a connection does with a candidate, stays a parameter. -/
namespace RtcCall.WebRtc

/- An `int` of the source. -/
abbrev CInt := {i : Int // -2147483648 ≤ i ∧ i ≤ 2147483647}

inductive SdpType where | offer | answer deriving DecidableEq, Repr

structure Description where
  kind : SdpType
  sdp : Bytes
  deriving DecidableEq, Repr

structure Candidate where
  sdpMid : Bytes
  sdpMlineIndex : CInt
  sdp : Bytes
  deriving DecidableEq, Repr

/- `serial` tells a connection from the one it replaces. -/
structure PeerConnection where
  serial : Nat
  localDescription : Option Description
  remoteDescription : Option Description
  candidates : List Candidate
  deriving DecidableEq, Repr

def PeerConnection.new (replaced : Option PeerConnection) : PeerConnection :=
  ⟨replaced.elim 0 (·.serial + 1),none,none,[]⟩

theorem newOther (pc : Option PeerConnection) : pc ≠ some (.new pc) := by
  cases pc with
  | none => intro same; cases same
  | some old =>
    intro same
    have serial : old.serial = old.serial+1 := congrArg PeerConnection.serial (Option.some.inj same)
    omega

/- A null description is refused and changes nothing. -/
def PeerConnection.setLocal (desc : Option Description) (pc : PeerConnection) : PeerConnection :=
  {pc with localDescription := desc.or pc.localDescription}

def PeerConnection.setRemote (desc : Option Description) (pc : PeerConnection) : PeerConnection :=
  {pc with remoteDescription := desc.or pc.remoteDescription}

inductive Json where
  | null
  | bool (b : Bool)
  | int (i : Int)
  | real (r : Rat)
  | string (s : Bytes)
  | array (items : List Json)
  | object (members : List (Bytes × Json))

namespace Json

def isObject : Json → Bool
  | .object _ => true
  | _ => false

/- `body[key]`; an absent member reads as null. -/
def get (key : Bytes) : Json → Json
  | .object members => ((members.find? (·.1 == key)).map Prod.snd).getD .null
  | _ => .null

def isMember (key : Bytes) : Json → Bool
  | .object members => members.any (·.1 == key)
  | _ => false

def insert (key : Bytes) (value : Json) : List (Bytes × Json) → List (Bytes × Json)
  | [] => [(key,value)]
  | m::rest =>
    if key = m.1 then (key,value)::rest
    else if key < m.1 then (key,value)::m::rest
    else m::insert key value rest

/- `body[key] = value`; null turns into an object. -/
def set (body : Json) (key : Bytes) (value : Json) : Json := match body with
  | .object members => .object (insert key value members)
  | _ => .object [(key,value)]

def asString : Json → Option Bytes
  | .string s => some s
  | _ => none

def toCInt (i : Int) : Option CInt :=
  if range : -2147483648 ≤ i ∧ i ≤ 2147483647 then some ⟨i,range⟩ else none

/- A number with no fractional part counts as an int, as in JsonCpp's isInt. -/
def asInt : Json → Option CInt
  | .int i => toCInt i
  | .real r => if r.den = 1 then toCInt r.num else none
  | _ => none

end Json

/- WebRTC and JsonCpp as the code calls them. `addIceCandidate` is what the
connection answers. -/
structure Library where
  createSessionDescription : SdpType → Bytes → Option Description
  createIceCandidate : Bytes → CInt → Bytes → Option Candidate
  addIceCandidate : PeerConnection → Candidate → Bool
  write : Json → Bytes
  parse : Bytes → Option Json

end RtcCall.WebRtc
