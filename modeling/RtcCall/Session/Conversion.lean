import Mathlib.Data.List.Basic
import RtcCall.Session.CallContext

/-! Message and AcceptNIT with the contents the application gives them. Message
dereferences what MakeContents returns, AcceptNIT takes it null; both report the type
in the spelling of the library once it is one of its own. -/
namespace RtcCall.Conversion
open CallContext Mime

def SessionCall.body : SessionCall → Option SipContents
  | .message body => some body
  | .acceptNIT _ body => body
  | .rejectNIT _ | .provideAnswer _ | .accept _ | .reject _ => none

/- The closure returns whatever the handle, and what it has sent reads back as `msg`. -/
def Conveys (msg : Contents) (op : Operation) : Prop :=
  ∀ t h w, ∃ u new, execute (.operation t h op) w = some u ∧ u.log.applied = w.log.applied ++ new ∧
    ∀ a ∈ new, ∀ call ∈ a.calls, ∀ body, SessionCall.body call = some body → fromSip body = msg

def spelled (m : Mime) : Bytes := m.type ++ slash :: m.subtype

/- The library's two types with a body of their own, in the library's spelling, or
the SDP type in any. -/
def MessageType (type : Bytes) : Prop :=
  type = spelled plain ∨ type = spelled json ∨ sameText type (spelled sdp) = true
instance (type) : Decidable (MessageType type) := by unfold MessageType; infer_instance

def AcceptType (type : Bytes) : Prop :=
  slash ∈ type ∧ (sameText type (spelled plain) = true → type = spelled plain) ∧
    (sameText type (spelled json) = true → type = spelled json)
instance (type) : Decidable (AcceptType type) := by unfold AcceptType; infer_instance

theorem lowerSlash {b : UInt8} (same : lower b = slash) : b = slash := by
  unfold lower at same
  split at same
  · rename_i upper
    have value : (b + 32).toNat = 47 := by rw [same]; rfl
    rw [UInt8.toNat_add] at value
    have small : (32 : UInt8).toNat = 32 := rfl
    omega
  · exact same

theorem lowerSpelled (m : Mime) : (spelled m).map lower = m.type.map lower ++ slash :: m.subtype.map lower := by
  rw [spelled,List.map_append,List.map_cons,show lower slash = slash from rfl]

/- A type without further slashes is compared part by part. -/
theorem sameSpelled {x : Mime} (type : slash ∉ x.type.map lower) (subtype : slash ∉ x.subtype.map lower) (m : Mime) :
    sameText (spelled m) (spelled x) = true ↔ sameMime m x = true := by
  simp only [sameText,sameMime,Bool.and_eq_true,beq_iff_eq,lowerSpelled]
  rw [eq_comm,List.append_cons_inj_of_notMem type subtype]
  constructor
  · intro parts
    exact ⟨parts.1.symm,parts.2.2.symm⟩
  · intro parts
    exact ⟨parts.1.symm,rfl,parts.2.symm⟩

/- What MakeContents makes of the contents, read off the type text. -/
inductive Converts (msg : Contents) : Except Fault (Option SipContents) → Prop
  | noSlash (absent : slash ∉ msg.type) : Converts msg (.error .noSlash)
  | plain (same : sameText msg.type (spelled plain) = true) : Converts msg (.ok (some ⟨plain,msg.body⟩))
  | sdp {m : Mime} (same : sameText msg.type (spelled sdp) = true) (kept : spelled m = msg.type) :
      Converts msg (.ok (some ⟨m,msg.body⟩))
  | json (same : sameText msg.type (spelled json) = true) : Converts msg (.ok (some ⟨json,msg.body⟩))
  | unknown (present : slash ∈ msg.type) (plain : sameText msg.type (spelled plain) = false)
      (sdp : sameText msg.type (spelled sdp) = false) (json : sameText msg.type (spelled json) = false) :
      Converts msg (.ok none)

theorem converts (msg : Contents) : Converts msg (makeContents msg) := by
  unfold makeContents
  cases split : makeMime msg.type with
  | error f =>
    unfold makeMime at split
    split at split <;> try contradiction
    rename_i absent
    cases split
    exact .noSlash absent
  | ok m =>
    have joined : spelled m = msg.type := (makeMimeJoined split).1
    have compared : ∀ {x : Mime}, slash ∉ x.type.map lower → slash ∉ x.subtype.map lower →
        (sameText msg.type (spelled x) = true ↔ sameMime m x = true) := by
      intro x type subtype
      rw [← joined]
      exact sameSpelled type subtype m
    have asPlain := @compared plain (by decide) (by decide)
    have asSdp := @compared sdp (by decide) (by decide)
    have asJson := @compared json (by decide) (by decide)
    simp only [bind,Except.bind,pure,Except.pure]
    split <;> rename_i isPlain
    · exact .plain (asPlain.mpr isPlain)
    · split <;> rename_i isSdp
      · exact .sdp (asSdp.mpr isSdp) joined
      · split <;> rename_i isJson
        · exact .json (asJson.mpr isJson)
        · have present : slash ∈ msg.type := by
            rw [← joined]
            exact List.mem_append_right _ List.mem_cons_self
          exact .unknown present (Bool.eq_false_iff.mpr (mt asPlain.mp isPlain))
            (Bool.eq_false_iff.mpr (mt asSdp.mp isSdp)) (Bool.eq_false_iff.mpr (mt asJson.mp isJson))

theorem sameTextShared {a b c : Bytes} (left : sameText a b = true) (right : sameText a c = true) :
    sameText b c = true := by
  simp only [sameText,beq_iff_eq] at left right ⊢
  rw [← left,← right]

theorem sameTextSelf (a : Bytes) : sameText a a = true := by simp [sameText]

/- Read back, what is sent in the library's spelling is `msg` when `msg` has that spelling. -/
theorem readBackIff {msg : Contents} {m : Mime} : fromSip ⟨m,msg.body⟩ = msg ↔ msg.type = spelled m := by
  constructor
  · intro same
    rw [← same]
    rfl
  · intro same
    cases msg
    subst same
    rfl

theorem slashShared {a b : Bytes} (same : sameText a b = true) (there : slash ∈ b) : slash ∈ a := by
  simp only [sameText,beq_iff_eq] at same
  have lowered : slash ∈ a.map lower := by
    rw [same]
    exact List.mem_map.mpr ⟨slash,there,rfl⟩
  obtain ⟨c,member,isSlash⟩ := List.mem_map.mp lowered
  rw [← lowerSlash isSlash]
  exact member

theorem messageReadBack (msg : Contents) :
    (∃ body, makeContents msg = .ok (some body) ∧ fromSip body = msg) ↔ MessageType msg.type := by
  have made := converts msg
  constructor
  · intro ⟨body,sent,same⟩
    rw [sent] at made
    cases made with
    | plain => exact .inl (readBackIff.mp same)
    | sdp isSdp => exact .inr (.inr isSdp)
    | json => exact .inr (.inl (readBackIff.mp same))
  · intro known
    have alike : sameText msg.type (spelled plain) = true ∨ sameText msg.type (spelled json) = true ∨
        sameText msg.type (spelled sdp) = true := by
      rcases known with same | same | same
      · exact .inl (by rw [same]; exact sameTextSelf _)
      · exact .inr (.inl (by rw [same]; exact sameTextSelf _))
      · exact .inr (.inr same)
    generalize result : makeContents msg = r at made
    cases made with
    | noSlash absent =>
      exfalso
      rcases alike with same | same | same <;> exact absent (slashShared same (by decide))
    | plain isPlain =>
      rcases known with same | same | same
      · exact ⟨_,rfl,readBackIff.mpr same⟩
      · rw [same] at isPlain; exact absurd isPlain (by decide)
      · exact absurd (sameTextShared isPlain same) (by decide)
    | sdp isSdp kept => exact ⟨_,rfl,readBackIff.mpr kept.symm⟩
    | json isJson =>
      rcases known with same | same | same
      · rw [same] at isJson; exact absurd isJson (by decide)
      · exact ⟨_,rfl,readBackIff.mpr same⟩
      · exact absurd (sameTextShared isJson same) (by decide)
    | unknown present plain sdp json =>
      rcases alike with same | same | same
      · rw [plain] at same; cases same
      · rw [json] at same; cases same
      · rw [sdp] at same; cases same

theorem acceptReadBack (msg : Contents) :
    (∃ made, makeContents msg = .ok made ∧ ∀ body, made = some body → fromSip body = msg) ↔
      AcceptType msg.type := by
  have made := converts msg
  constructor
  · intro ⟨body,sent,same⟩
    rw [sent] at made
    cases made with
    | plain isPlain =>
      have spelling := readBackIff.mp (same _ rfl)
      exact ⟨slashShared isPlain (by decide),fun _ => spelling,
        fun isJson => absurd (sameTextShared isPlain isJson) (by decide)⟩
    | sdp isSdp kept =>
      exact ⟨slashShared isSdp (by decide),fun isPlain => absurd (sameTextShared isSdp isPlain) (by decide),
        fun isJson => absurd (sameTextShared isSdp isJson) (by decide)⟩
    | json isJson =>
      have spelling := readBackIff.mp (same _ rfl)
      exact ⟨slashShared isJson (by decide),
        fun isPlain => absurd (sameTextShared isJson isPlain) (by decide),fun _ => spelling⟩
    | unknown present plain sdp json =>
      exact ⟨present,fun isPlain => absurd isPlain (by simp [plain]),fun isJson => absurd isJson (by simp [json])⟩
  · intro ⟨present,plainExact,jsonExact⟩
    generalize result : makeContents msg = r at made
    cases made with
    | noSlash absent => exact absurd present absent
    | plain isPlain =>
      refine ⟨_,rfl,?_⟩
      intro body same
      cases same
      exact readBackIff.mpr (plainExact isPlain)
    | sdp isSdp kept =>
      refine ⟨_,rfl,?_⟩
      intro body same
      cases same
      exact readBackIff.mpr kept.symm
    | json isJson =>
      refine ⟨_,rfl,?_⟩
      intro body same
      cases same
      exact readBackIff.mpr (jsonExact isJson)
    | unknown => exact ⟨none,rfl,fun body same => by cases same⟩

/- A call whose session is valid, held by its handle. -/
def talking : World :=
  {World.initial .caller with h := some 0, object := .alive, sessions := [⟨0,0,true,false,none⟩], fresh := 1}

theorem conveysCalls (msg : Contents) (op : Operation) : Conveys msg op ↔
    ∃ calls, op.calls = .ok calls ∧
      ∀ call ∈ calls, ∀ body, SessionCall.body call = some body → fromSip body = msg := by
  constructor
  · intro conveys
    obtain ⟨u,new,ok,grown,faithful⟩ := conveys .dum (some 0) talking
    have valid : talking.valid (some 0) = some ⟨0,0,true,false,none⟩ := rfl
    rcases operationExact ok with ⟨x,calls,found,made,rfl⟩ | ⟨missing,-⟩
    swap
    · rw [valid] at missing
      cases missing
    cases Option.some.inj (valid.symm.trans found)
    refine ⟨calls,made,?_⟩
    have entry : new = [⟨.dum,0,op,calls⟩] := grown.symm
    rw [entry] at faithful
    exact faithful _ List.mem_cons_self
  · intro conveys t h w
    obtain ⟨calls,made,faithful⟩ := conveys
    cases found : w.valid h with
    | none =>
      refine ⟨w,[],?_,(List.append_nil _).symm,by simp⟩
      simp only [execute,found]
    | some x =>
      refine ⟨_,[⟨t,x.id,op,calls⟩],by simp only [execute,found,made]; rfl,rfl,?_⟩
      intro a member
      rw [List.mem_singleton.mp member]
      exact faithful

theorem messageCalls (msg : Contents) : Conveys msg (.message msg) ↔
    ∃ body, makeContents msg = .ok (some body) ∧ fromSip body = msg := by
  rw [conveysCalls]
  simp only [Operation.calls,bind,Except.bind,pure,Except.pure,throw,throwThe,MonadExceptOf.throw]
  cases made : makeContents msg with
  | error f => simp
  | ok result =>
    cases result with
    | none => simp
    | some body => simp [SessionCall.body]

theorem acceptCalls (code : Int) (msg : Contents) : Conveys msg (.acceptNIT code (some msg)) ↔
    ∃ made, makeContents msg = .ok made ∧ ∀ body, made = some body → fromSip body = msg := by
  rw [conveysCalls]
  simp only [Operation.calls,bind,Except.bind,pure,Except.pure]
  cases made : makeContents msg with
  | error f => simp
  | ok result => simp [SessionCall.body]

theorem contentsConveyed (msg : Contents) :
    (Conveys msg (.message msg) ↔ MessageType msg.type) ∧
    ∀ code, Conveys msg (.acceptNIT code (some msg)) ↔ AcceptType msg.type := by
  constructor
  · rw [messageCalls,messageReadBack]
  · intro code
    rw [acceptCalls,acceptReadBack]

/- An unknown type is dereferenced as null by Message, a type without a slash aborts
both, and a respelled type comes back in the library's spelling. -/
theorem contentsNotConveyed :
    execute (.operation .app (some 0) (.message ⟨ascii "image/png",[1]⟩)) talking = none ∧
    execute (.operation .app (some 0) (.acceptNIT 200 (some ⟨ascii "text",[1]⟩))) talking = none ∧
    ¬ Conveys ⟨ascii "image/png",[1]⟩ (.message ⟨ascii "image/png",[1]⟩) ∧
    ¬ Conveys ⟨ascii "text",[1]⟩ (.acceptNIT 200 (some ⟨ascii "text",[1]⟩)) ∧
    ¬ Conveys ⟨ascii "Text/Plain",[1]⟩ (.message ⟨ascii "Text/Plain",[1]⟩) := by
  refine ⟨by decide,by decide,?_,?_,?_⟩
  · rw [messageCalls,messageReadBack]; decide
  · rw [acceptCalls,acceptReadBack]; decide
  · rw [messageCalls,messageReadBack]; decide

end RtcCall.Conversion
