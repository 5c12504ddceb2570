import Mathlib.Data.List.TakeWhile

/-! Message contents between the application and the SIP library. The type text is
split at its first slash and matched, letter case ignored, against three types of
the library; every other type has no SIP body. -/
namespace RtcCall

abbrev Bytes := List UInt8

def ascii (text : String) : Bytes := text.toList.map (fun c => UInt8.ofNat c.toNat)

structure Contents where
  type : Bytes
  body : Bytes
  deriving DecidableEq, Repr

/- What aborts the process: MakeMime's assertion, and a null body dereferenced. -/
inductive Fault where | noSlash | nullContents deriving DecidableEq, Repr

structure Mime where
  type : Bytes
  subtype : Bytes
  deriving DecidableEq, Repr

namespace Mime

def slash : UInt8 := 47

def lower (b : UInt8) : UInt8 := if 65 ≤ b.toNat ∧ b.toNat ≤ 90 then b + 32 else b

def sameText (a b : Bytes) : Bool := a.map lower == b.map lower

def sameMime (a b : Mime) : Bool := sameText a.type b.type && sameText a.subtype b.subtype

def plain : Mime := ⟨ascii "text",ascii "plain"⟩

def sdp : Mime := ⟨ascii "application",ascii "sdp"⟩

def json : Mime := ⟨ascii "application",ascii "json"⟩

end Mime
open Mime

/- A body as the SIP library carries it. -/
structure SipContents where
  mime : Mime
  body : Bytes
  deriving DecidableEq, Repr

def makeMime (text : Bytes) : Except Fault Mime :=
  if slash ∈ text then .ok ⟨text.takeWhile (· != slash),(text.dropWhile (· != slash)).tail⟩
  else .error .noSlash

/- The SDP branch builds a PlainContents that keeps the caller's spelling. -/
def makeContents (contents : Contents) : Except Fault (Option SipContents) := do
  let mime ← makeMime contents.type
  if sameMime mime plain then return some ⟨plain,contents.body⟩
  if sameMime mime sdp then return some ⟨mime,contents.body⟩
  if sameMime mime json then return some ⟨json,contents.body⟩
  return none

/- The way back: MakeContents of a SIP body. -/
def fromSip (contents : SipContents) : Contents :=
  ⟨contents.mime.type ++ slash :: contents.mime.subtype,contents.body⟩

theorem makeMimeJoined {text : Bytes} {m : Mime} (ok : makeMime text = .ok m) :
    m.type ++ slash :: m.subtype = text ∧ slash ∉ m.type := by
  unfold makeMime at ok
  split at ok <;> try contradiction
  rename_i found
  cases Except.ok.inj ok
  have whole := List.takeWhile_append_dropWhile (p := (· != slash)) (l := text)
  have left : slash ∉ text.takeWhile (· != slash) := by
    intro inside
    have passed := List.mem_takeWhile_imp inside
    simp at passed
  refine ⟨?_,left⟩
  cases rest : text.dropWhile (· != slash) with
  | nil =>
    rw [rest,List.append_nil] at whole
    exact absurd (by rw [whole]; exact found) left
  | cons b tail =>
    have first : b = slash := by
      have stopped := List.head?_dropWhile_not (· != slash) text
      rw [rest] at stopped
      simpa using stopped
    rw [rest,first] at whole
    exact whole

/- What is sent, read back, has the caller's body, and its type up to letter case. -/
theorem sentReadBack {contents : Contents} {sent : SipContents}
    (ok : makeContents contents = .ok (some sent)) :
    (fromSip sent).body = contents.body ∧ sameText (fromSip sent).type contents.type = true := by
  unfold makeContents at ok
  cases split : makeMime contents.type with
  | error f => rw [split] at ok; cases ok
  | ok m =>
    rw [split] at ok
    have joined := (makeMimeJoined split).1
    have same : ∀ x : Mime, sameMime m x = true →
        sameText (x.type ++ slash :: x.subtype) contents.type = true := by
      intro x equal
      simp only [sameMime,sameText,Bool.and_eq_true,beq_iff_eq] at equal ⊢
      rw [← joined,List.map_append,List.map_append,List.map_cons,List.map_cons,equal.1,equal.2]
    simp only [bind,Except.bind,pure,Except.pure] at ok
    split at ok
    · rename_i text
      cases ok
      exact ⟨rfl,same plain text⟩
    · split at ok
      · cases ok
        refine ⟨rfl,?_⟩
        rw [fromSip,joined]
        simp [sameText]
      · split at ok
        · rename_i text
          cases ok
          exact ⟨rfl,same json text⟩
        · cases ok

end RtcCall
