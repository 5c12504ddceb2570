import Mathlib.Data.List.Basic

/-! UpdateRegisterationByRport and the calls SendUpdateRegMsg makes with its
result. The comparison of two NameAddrs belongs to the SIP library and is a
parameter, `same`; host and port are compared as the source compares them. -/
namespace RtcCall.RportUpdate

structure Uri where
  scheme : String
  user : String
  host : String
  port : Int
  deriving DecidableEq, Repr

structure NameAddr where
  displayName : String
  uri : Uri
  deriving DecidableEq, Repr

/- `rport` is none without the parameter, `some none` when it has no value. -/
structure Via where
  sentHost : String
  sentPort : Int
  received : Option String
  rport : Option (Option Int)
  deriving DecidableEq, Repr

structure UpdateContacts where
  add : List NameAddr
  del : List NameAddr
  deriving DecidableEq, Repr

def viaMatches (via : Via) (contact : NameAddr) : Bool :=
  contact.uri.host == via.sentHost && contact.uri.port == via.sentPort

def setHost (host : Option String) (contact : NameAddr) : NameAddr := match host with
  | some h => {contact with uri := {contact.uri with host := h}}
  | none => contact

def setPort (port : Option (Option Int)) (contact : NameAddr) : NameAddr := match port with
  | some (some p) => {contact with uri := {contact.uri with port := p}}
  | _ => contact

def newContact (via : Via) (contact : NameAddr) : NameAddr :=
  setPort via.rport (setHost via.received contact)

section
variable (same : NameAddr → NameAddr → Bool)

def Rewrites (via : Via) (contact : NameAddr) : Prop :=
  viaMatches via contact = true ∧ same contact (newContact via contact) = false
instance (via contact) : Decidable (Rewrites same via contact) := by
  unfold Rewrites; infer_instance

def contactStep (via : Via) (contacts : UpdateContacts) (contact : NameAddr) : UpdateContacts :=
  if viaMatches via contact then
    let new := newContact via contact
    if !same contact new then ⟨contacts.add ++ [new],contacts.del ++ [contact]⟩ else contacts
  else contacts

def contactLoop (via : Via) : List NameAddr → UpdateContacts → UpdateContacts
  | [],contacts => contacts
  | contact::rest,contacts => contactLoop via rest (contactStep same via contacts contact)

def viaLoop (allContacts : List NameAddr) : List Via → UpdateContacts → UpdateContacts
  | [],contacts => contacts
  | via::rest,contacts => viaLoop allContacts rest (contactLoop same via allContacts contacts)

/- The out parameter is cleared first, then returned beside the result. -/
def updateRegisterationByRport (allContacts : List NameAddr) (vias : List Via) : Bool × UpdateContacts :=
  let contacts := viaLoop same allContacts vias ⟨[],[]⟩
  (!contacts.add.isEmpty && !contacts.del.isEmpty,contacts)

/- The pairs (old, new) in the order in which the nested loops push them. -/
def rewritesOf (via : Via) (allContacts : List NameAddr) : List (NameAddr × NameAddr) :=
  (allContacts.filter (fun c => decide (Rewrites same via c))).map (fun c => (c,newContact via c))

def rewrites (allContacts : List NameAddr) (vias : List Via) : List (NameAddr × NameAddr) :=
  vias.flatMap (fun via => rewritesOf same via allContacts)

def push (contacts : UpdateContacts) (pairs : List (NameAddr × NameAddr)) : UpdateContacts :=
  ⟨contacts.add ++ pairs.map Prod.snd,contacts.del ++ pairs.map Prod.fst⟩

theorem pushAppend (contacts xs ys) : push (push contacts xs) ys = push contacts (xs ++ ys) := by
  simp [push]

theorem contactStepPushes (via contacts contact) :
    contactStep same via contacts contact = push contacts (rewritesOf same via [contact]) := by
  unfold contactStep
  by_cases matched : viaMatches via contact = true
  · by_cases equal : same contact (newContact via contact) = true
    · simp [matched,equal,rewritesOf,Rewrites,push]
    · simp [matched,equal,rewritesOf,Rewrites,push]
  · simp [matched,rewritesOf,Rewrites,push]

theorem contactLoopPushes (via allContacts contacts) :
    contactLoop same via allContacts contacts = push contacts (rewritesOf same via allContacts) := by
  induction allContacts generalizing contacts with
  | nil => simp [contactLoop,rewritesOf,push]
  | cons contact rest ih =>
    rw [contactLoop,contactStepPushes,ih,pushAppend]
    simp only [rewritesOf,← List.map_append,← List.filter_append,List.singleton_append]

theorem viaLoopPushes (allContacts vias contacts) :
    viaLoop same allContacts vias contacts = push contacts (rewrites same allContacts vias) := by
  induction vias generalizing contacts with
  | nil => simp [viaLoop,rewrites,push]
  | cons via rest ih =>
    rw [viaLoop,contactLoopPushes,ih,pushAppend]
    rfl

theorem updateContacts (allContacts vias) :
    (updateRegisterationByRport same allContacts vias).2 = push ⟨[],[]⟩ (rewrites same allContacts vias) :=
  viaLoopPushes same allContacts vias ⟨[],[]⟩

theorem updateReturns (allContacts vias) :
    (updateRegisterationByRport same allContacts vias).1 = !(rewrites same allContacts vias).isEmpty := by
  have pushed := viaLoopPushes same allContacts vias ⟨[],[]⟩
  simp [updateRegisterationByRport,pushed,push]

theorem memRewrites {allContacts vias old new} : (old,new) ∈ rewrites same allContacts vias ↔
    ∃ via ∈ vias, old ∈ allContacts ∧ Rewrites same via old ∧ new = newContact via old := by
  simp only [rewrites,List.mem_flatMap,rewritesOf,List.mem_map,List.mem_filter,decide_eq_true_eq,Prod.mk.injEq]
  constructor
  · rintro ⟨via,hv,c,⟨hc,hr⟩,rfl,rfl⟩
    exact ⟨via,hv,hc,hr,rfl⟩
  · rintro ⟨via,hv,hc,hr,rfl⟩
    exact ⟨via,hv,old,⟨hc,hr⟩,rfl,rfl⟩

theorem memDel {allContacts vias contact} :
    contact ∈ (updateRegisterationByRport same allContacts vias).2.del ↔
      contact ∈ allContacts ∧ ∃ via ∈ vias, Rewrites same via contact := by
  rw [updateContacts]
  simp only [push,List.nil_append,List.mem_map,Prod.exists,exists_and_right,exists_eq_right,memRewrites]
  constructor
  · rintro ⟨_,via,hv,hc,hr,_⟩
    exact ⟨hc,via,hv,hr⟩
  · rintro ⟨hc,via,hv,hr⟩
    exact ⟨_,via,hv,hc,hr,rfl⟩

theorem memAdd {allContacts vias contact} :
    contact ∈ (updateRegisterationByRport same allContacts vias).2.add ↔
      ∃ via ∈ vias, ∃ old ∈ allContacts, Rewrites same via old ∧ contact = newContact via old := by
  rw [updateContacts]
  simp only [push,List.nil_append,List.mem_map,Prod.exists,exists_eq_right,memRewrites]
  constructor
  · rintro ⟨old,via,hv,hc,hr,eq⟩
    exact ⟨via,hv,old,hc,hr,eq⟩
  · rintro ⟨via,hv,old,hc,hr,eq⟩
    exact ⟨old,via,hv,hc,hr,eq⟩

theorem addAlignsDel (allContacts vias) :
    (updateRegisterationByRport same allContacts vias).2.add.length =
      (updateRegisterationByRport same allContacts vias).2.del.length := by
  rw [updateContacts]
  simp [push]

end

/- What the closure of SendUpdateRegMsg asks of a valid registration handle. -/
inductive RegistrationCall where
  | removeAll
  | addBinding (contact : NameAddr)
  deriving DecidableEq, Repr

def updateCalls (contacts : UpdateContacts) : List RegistrationCall :=
  .removeAll :: contacts.add.map .addBinding

/-! The registrar's side, as documented: removeAll removes every binding of the
address-of-record, addBinding adds one. -/
def registrar (bindings : List NameAddr) : RegistrationCall → List NameAddr
  | .removeAll => []
  | .addBinding contact => if contact ∈ bindings then bindings else bindings ++ [contact]

def carryOut (calls : List RegistrationCall) (bindings : List NameAddr) : List NameAddr :=
  calls.foldl registrar bindings

theorem memAddBinding {bindings : List NameAddr} {a contact : NameAddr} :
    contact ∈ registrar bindings (.addBinding a) ↔ contact ∈ bindings ∨ contact = a := by
  by_cases present : a ∈ bindings
  · simp only [registrar,if_pos present]
    exact ⟨.inl,by rintro (h | rfl); exact h; exact present⟩
  · simp [registrar,if_neg present]

theorem memAddBindings {added bindings : List NameAddr} {contact : NameAddr} :
    contact ∈ carryOut (added.map RegistrationCall.addBinding) bindings ↔
      contact ∈ bindings ∨ contact ∈ added := by
  induction added generalizing bindings with
  | nil => simp [carryOut]
  | cons a rest ih =>
    change contact ∈ carryOut (rest.map RegistrationCall.addBinding) (registrar bindings (.addBinding a)) ↔ _
    rw [ih,memAddBinding,List.mem_cons,or_assoc]

theorem memAfterUpdate {contacts : UpdateContacts} {bindings : List NameAddr} {contact : NameAddr} :
    contact ∈ carryOut (updateCalls contacts) bindings ↔ contact ∈ contacts.add := by
  change contact ∈ carryOut (contacts.add.map RegistrationCall.addBinding) [] ↔ _
  simp [memAddBindings]

/- The bindings are `allContacts` with those of `del` taken out and those of `add` put in. -/
def ReplacedIn (allContacts : List NameAddr) (contacts : UpdateContacts) (bindings : List NameAddr) : Prop :=
  ∀ contact, contact ∈ bindings ↔
    (contact ∈ allContacts ∧ contact ∉ contacts.del) ∨ contact ∈ contacts.add

/- Every reported contact is rewritten by some Via, or is what another one is rewritten to. -/
def EveryContactRewritten (same : NameAddr → NameAddr → Bool) (allContacts : List NameAddr)
    (vias : List Via) : Prop :=
  ∀ contact ∈ allContacts, (∃ via ∈ vias, Rewrites same via contact) ∨
    ∃ via ∈ vias, ∃ old ∈ allContacts, Rewrites same via old ∧ contact = newContact via old
instance (same allContacts vias) : Decidable (EveryContactRewritten same allContacts vias) := by
  unfold EveryContactRewritten; infer_instance

theorem updateReplacesExactly (same : NameAddr → NameAddr → Bool) (allContacts : List NameAddr)
    (vias : List Via) (bindings : List NameAddr) (contacts : UpdateContacts)
    (updated : updateRegisterationByRport same allContacts vias = (true,contacts)) :
    ReplacedIn allContacts contacts (carryOut (updateCalls contacts) bindings) ↔
      EveryContactRewritten same allContacts vias := by
  have result : contacts = (updateRegisterationByRport same allContacts vias).2 := by rw [updated]
  subst result
  constructor
  · intro replaced contact member
    by_cases deleted : contact ∈ (updateRegisterationByRport same allContacts vias).2.del
    · exact .inl ((memDel same).mp deleted).2
    · have kept := (replaced contact).mpr (.inl ⟨member,deleted⟩)
      exact .inr ((memAdd same).mp (memAfterUpdate.mp kept))
  · intro every contact
    rw [memAfterUpdate]
    constructor
    · exact .inr
    · rintro (⟨member,kept⟩ | added)
      · rcases every contact member with rewritten | new
        · exact absurd ((memDel same).mpr ⟨member,rewritten⟩) kept
        · exact (memAdd same).mpr new
      · exact added

def phone : NameAddr := ⟨"",⟨"sip","peer","10.0.0.2",4455⟩⟩
def desk : NameAddr := ⟨"",⟨"sip","peer","10.0.0.9",5060⟩⟩
def natVia : Via := ⟨"10.0.0.2",4455,some "203.0.113.7",some (some 40000)⟩
def phoneOutside : NameAddr := ⟨"",⟨"sip","peer","203.0.113.7",40000⟩⟩

theorem updateReplacesPhone :
    ReplacedIn [phone] ⟨[phoneOutside],[phone]⟩
      (carryOut (updateCalls ⟨[phoneOutside],[phone]⟩) [phone]) ↔
      EveryContactRewritten (fun a b => a == b) [phone] [natVia] :=
  updateReplacesExactly (fun a b => a == b) [phone] [natVia] [phone] ⟨[phoneOutside],[phone]⟩ (by decide)

theorem otherDeviceLost :
    updateRegisterationByRport (fun a b => a == b) [phone,desk] [natVia] = (true,⟨[phoneOutside],[phone]⟩) ∧
    ¬ ReplacedIn [phone,desk] ⟨[phoneOutside],[phone]⟩
      (carryOut (updateCalls ⟨[phoneOutside],[phone]⟩) [phone,desk]) := by
  refine ⟨by decide,fun replaced => ?_⟩
  have kept := (replaced desk).mpr (.inl (by decide))
  revert kept
  decide

end RtcCall.RportUpdate
