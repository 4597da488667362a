import Yggdrasil.Capsule.Template
import Yggdrasil.Python.Number

/-! Pool membership of a capsule. A call of `member_add` asks Neutron for the subnet, Zun for the
capsule and Octavia for the member, each once; the answers are given, and what a call does to the
pool and to the recorded errors follows. The call is atomic exactly if it does not fail after
Octavia has stored the member. -/

namespace Yggdrasil.Capsule

open Python

/-! ### The driver and its services -/

structure Subnet where
  id : Value
  ipVersion : Value

/-- The arguments of `pool_member_create`. -/
structure MemberRequest where
  name : Value
  poolId : Value
  address : Value
  port : Value
  subnetId : Value

structure Member extends MemberRequest where
  id : Value

/-- What came of the request for a member: its id, or an exception, which does not tell whether
the member was stored. -/
inductive Creation where
  | created (id : Value)
  | raised (e : Failure) (stored : Option Value)

/-- The answers to the requests of one call. -/
structure Answers where
  subnet : Except Failure Subnet
  profile : Except Failure Unit
  session : Except Failure Unit
  capsule : Answer
  readyBefore : Except Failure Bool
  creation : Creation
  readyAfter : Except Failure Bool

/-- The members of the pools, and the errors that the driver has recorded. -/
structure Driver where
  members : List Member
  memberErrors : List (Key × String)

/-- A value as the key of a mapping. -/
def key : Value → Key
  | .str s => .str s
  | v => .other v.repr v.truthy

def Node.ident (node : Node) : Value := node.id.getD .none

def Driver.recordError (d : Driver) (node : Node) (reason : String) : Driver :=
  { d with memberErrors := Dict.set d.memberErrors (key node.ident) reason }

def Driver.store (d : Driver) (request : MemberRequest) (id : Value) : Driver :=
  { d with members := d.members ++ [{ request with id := id }] }

/-! ### Addresses -/

/-- The details in Zun's answer to a lookup. -/
def capsuleDetails (answer : Answer) (obj : Node) : Except Failure Value := do
  match ← found answer with
  | none => return .dict []
  | some response =>
    let capsule ← response.responseJson
    let error ← getItem capsule "Error" .none
    if error.truthy then
      let message ← getItem error "message" .none
      .error (.ofText ("Failed to get details for Capsule " ++ obj.physicalId.toStr ++ ": " ++
        (message.orElse (.str "unknown error")).toStr))
    else
      let uuid ← getItem capsule "uuid" .none
      let id ← getItem capsule "id" .none
      let name ← getItem capsule "name" .none
      let status ← getItem capsule "status" .none
      let addresses ← getItem capsule "addresses" .none
      return .record [("id", (uuid.orElse id).orElse obj.physicalId),
        ("name", name.orElse obj.name), ("status", status),
        ("addresses", addresses.orElse (.dict []))]

/-- An exception in the place of the details. -/
def errorDetails (e : Failure) : Value :=
  .record [("Error", .record [("message", .str e.text)])]

def doGetDetails (session : Except Failure Unit) (answer : Answer) (obj : Node) :
    Except Failure Value :=
  if !obj.physicalId.truthy then .ok (.dict [])
  else session.map fun _ =>
    match capsuleDetails answer obj with
    | .ok details => details
    | .error e => errorDetails e

def listItems : Value → List Value
  | .seq .list items => items
  | _ => []

/-- The address in an entry of the subnet and of the IP version. -/
def entryAddress (subnet : Subnet) : Value → Option Value
  | .dict entry =>
    if (Mapping.get entry "subnet_id").toStr = subnet.id.toStr ∧
        (Mapping.get entry "version").toStr = subnet.ipVersion.toStr ∧
        (Mapping.get entry "addr").truthy = true then
      some (Mapping.get entry "addr")
    else none
  | _ => none

def addressForSubnet (addresses : Value) (subnet : Subnet) : Option Value :=
  match addresses with
  | .dict networks =>
    networks.findSome? fun network => (listItems network.2).findSome? (entryAddress subnet)
  | _ => none

/-! ### The addition -/

/-- What keeps a call from an answer: a reason of its own, or an exception. -/
inductive Stop where
  | refused (reason : String)
  | raised (e : Failure)

/-- The recorded text; both handlers of exceptions record the same one. -/
def Stop.reason (node : Node) (poolId : Value) : Stop → String
  | .refused reason => reason
  | .raised e => "Failed to add Capsule " ++ node.ident.toStr ++ " to Octavia pool " ++
      poolId.toStr ++ ": " ++ e.text

def attempt {α : Type} (r : Except Failure α) : Except Stop α := r.mapError .raised

/-- The exception of `int(value)`. -/
def intFailure (v : Value) : NumberError → Failure
  | .overflow => .ofText "cannot convert float infinity to integer"
  | .value =>
    match v with
    | .float _ => .ofText "cannot convert float NaN to integer"
    | v => .ofText ("invalid literal for int() with base 10: " ++ v.repr)
  | .type => .ofText ("int() argument must be a string, a bytes-like object or a real number, not '"
      ++ typeName v ++ "'")

/-- The refusal for want of an address; its text has the IP version as a number. -/
def noAddress (node : Node) (subnet : Subnet) : Stop :=
  match intOf subnet.ipVersion with
  | .ok version => .refused ("Capsule " ++ node.ident.toStr ++ " has no address on pool subnet " ++
      subnet.id.toStr ++ " (IPv" ++ toString version ++ ").")
  | .error e => .raised (intFailure subnet.ipVersion e)

/-- The steps of `member_add` up to the request for the member. -/
def prepare (a : Answers) (node : Node) (lbId poolId port : Value) : Except Stop MemberRequest := do
  let subnet ← attempt a.subnet
  attempt a.profile
  let details ← attempt (doGetDetails a.session a.capsule node)
  let error ← attempt (getItem details "Error" .none)
  if error.truthy then
    let message ← attempt (getItem error "message" .none)
    .error (.refused ("Failed to read Capsule " ++ node.ident.toStr ++ " network addresses: " ++
      (message.orElse (.str "unknown error")).toStr))
  else
    let addresses ← attempt (getItem details "addresses" .none)
    match addressForSubnet (addresses.orElse (.dict [])) subnet with
    | none => .error (noAddress node subnet)
    | some address =>
      if ← attempt a.readyBefore then
        let name ← attempt (getItem details "name" .none)
        return ⟨name.orElse node.name, poolId, address, port, subnet.id⟩
      else .error (.refused ("Load balancer " ++ lbId.toStr ++ " is not ready for Capsule " ++
        node.ident.toStr ++ "."))

/-- The wait after the request. -/
def awaitMember (a : Answers) (node : Node) (lbId : Value) : Except Stop Unit := do
  if ← attempt a.readyAfter then return ()
  else .error (.refused ("Load balancer " ++ lbId.toStr ++
    " did not become ready after adding Capsule " ++ node.ident.toStr ++ "."))

/-- What `member_add` returns, and the driver after it. -/
def memberAdd (d : Driver) (a : Answers) (node : Node) (lbId poolId port : Value) :
    Value × Driver :=
  match prepare a node lbId poolId port with
  | .error stop => (.none, d.recordError node (stop.reason node poolId))
  | .ok request =>
    match a.creation with
    | .raised e stored =>
      (.none, ((stored.elim d (d.store request)).recordError node
        ((Stop.raised e).reason node poolId)))
    | .created id =>
      match awaitMember a node lbId with
      | .ok () => (id, d.store request id)
      | .error stop => (.none, (d.store request id).recordError node (stop.reason node poolId))

/-! ### What Zun reports -/

/-- Zun's answer has the capsule. -/
def Reports (answer : Answer) (capsule : Mapping) : Prop :=
  ∃ response, found answer = .ok (some response) ∧ response.responseJson = .ok (.dict capsule)

/-- The capsule has the address on the subnet, with the subnet's IP version. -/
def OnSubnet (capsule : Mapping) (subnet : Subnet) (address : Value) : Prop :=
  ∃ networks, Mapping.get capsule "addresses" = .dict networks ∧ ∃ network ∈ networks,
    ∃ entry : Mapping, .dict entry ∈ listItems network.2 ∧
      (Mapping.get entry "subnet_id").toStr = subnet.id.toStr ∧
      (Mapping.get entry "version").toStr = subnet.ipVersion.toStr ∧
      Mapping.get entry "addr" = address ∧ address.truthy = true

section Details

variable {answer : Answer} {obj : Node} {capsule : Mapping} {subnet : Subnet} {address : Value}

theorem entryAddress_eq_some {v : Value} :
    entryAddress subnet v = some address ↔ ∃ entry : Mapping, v = .dict entry ∧
      (Mapping.get entry "subnet_id").toStr = subnet.id.toStr ∧
      (Mapping.get entry "version").toStr = subnet.ipVersion.toStr ∧
      Mapping.get entry "addr" = address ∧ address.truthy = true := by
  cases v with
  | dict entry =>
    simp only [entryAddress]
    split_ifs with h
    · constructor
      · intro heq
        cases heq
        exact ⟨entry, rfl, h.1, h.2.1, rfl, h.2.2⟩
      · rintro ⟨entry', heq, -, -, rfl, -⟩
        cases heq
        rfl
    · refine iff_of_false (fun heq => by cases heq) ?_
      rintro ⟨entry', heq, hid, hversion, rfl, haddr⟩
      cases heq
      exact h ⟨hid, hversion, haddr⟩
  | _ =>
    refine iff_of_false (fun heq => by cases heq) ?_
    rintro ⟨entry, heq, -⟩
    cases heq

/-- A missing or null mapping of addresses has none. -/
theorem addressForSubnet_orElse (v : Value) :
    addressForSubnet (v.orElse (.dict [])) subnet = addressForSubnet v subnet := by
  unfold Value.orElse
  split_ifs with h
  · rfl
  · cases v with
    | dict networks =>
      have hnil : networks = [] := by simpa [Value.truthy] using h
      rw [hnil]
    | _ => rfl

theorem onSubnet_of_addressForSubnet
    (h : addressForSubnet (Mapping.get capsule "addresses") subnet = some address) :
    OnSubnet capsule subnet address := by
  cases haddresses : Mapping.get capsule "addresses" with
  | dict networks =>
    rw [haddresses] at h
    obtain ⟨network, hnetwork, hfound⟩ := List.exists_of_findSome?_eq_some h
    obtain ⟨v, hv, hentry⟩ := List.exists_of_findSome?_eq_some hfound
    obtain ⟨entry, rfl, hspec⟩ := entryAddress_eq_some.1 hentry
    exact ⟨networks, haddresses, network, hnetwork, entry, hv, hspec⟩
  | _ =>
    rw [haddresses] at h
    cases h

theorem addressForSubnet_ne_none (h : OnSubnet capsule subnet address) :
    addressForSubnet (Mapping.get capsule "addresses") subnet ≠ none := by
  obtain ⟨networks, haddresses, network, hnetwork, entry, hentry, hspec⟩ := h
  rw [haddresses]
  intro hnone
  have hnetwork := List.findSome?_eq_none_iff.1 hnone network hnetwork
  have hentry := List.findSome?_eq_none_iff.1 hnetwork _ hentry
  rw [entryAddress_eq_some.2 ⟨entry, rfl, hspec⟩] at hentry
  cases hentry

/-- The details of a capsule in which no error is reported. -/
def detailsOf (capsule : Mapping) (obj : Node) : Value :=
  .record [("id", ((Mapping.get capsule "uuid").orElse (Mapping.get capsule "id")).orElse
      obj.physicalId), ("name", (Mapping.get capsule "name").orElse obj.name),
    ("status", Mapping.get capsule "status"),
    ("addresses", (Mapping.get capsule "addresses").orElse (.dict []))]

theorem capsuleDetails_of_reports (h : Reports answer capsule)
    (herror : (Mapping.get capsule "Error").truthy = false) :
    capsuleDetails answer obj = .ok (detailsOf capsule obj) := by
  obtain ⟨response, hfound, hjson⟩ := h
  have herror : ((Dict.get? capsule (.str "Error")).getD .none).truthy = false := herror
  simp only [capsuleDetails, hfound, hjson, getItem, bind, Except.bind, herror,
    Bool.false_eq_true, if_false]
  rfl

/-- The details are empty, or those of the capsule that is reported. -/
theorem capsuleDetails_cases {details : Value} (h : capsuleDetails answer obj = .ok details) :
    details = .dict [] ∨ ∃ capsule, Reports answer capsule ∧
      (Mapping.get capsule "Error").truthy = false ∧ details = detailsOf capsule obj := by
  obtain ⟨o, hfound, hrest⟩ := bind_eq_ok.1 h
  cases o with
  | none =>
    cases hrest
    exact .inl rfl
  | some response =>
    obtain ⟨v, hjson, hrest⟩ := bind_eq_ok.1 hrest
    obtain ⟨error, hitem, hrest⟩ := bind_eq_ok.1 hrest
    split_ifs at hrest with herror
    · obtain ⟨message, -, hraised⟩ := bind_eq_ok.1 hrest
      cases hraised
    · cases v with
      | dict capsule =>
        have hreports : Reports answer capsule := ⟨response, hfound, hjson⟩
        have hnoError : (Mapping.get capsule "Error").truthy = false := by
          cases hitem
          exact Bool.eq_false_iff.2 herror
        rw [capsuleDetails_of_reports hreports hnoError] at h
        exact .inr ⟨capsule, hreports, hnoError, (Except.ok.inj h).symm⟩
      | _ => cases hitem

theorem doGetDetails_cases {session : Except Failure Unit} {details : Value}
    (h : doGetDetails session answer obj = .ok details) :
    details = .dict [] ∨ (∃ e, details = errorDetails e) ∨
      obj.physicalId.truthy = true ∧ session = .ok () ∧ ∃ capsule, Reports answer capsule ∧
        (Mapping.get capsule "Error").truthy = false ∧ details = detailsOf capsule obj := by
  unfold doGetDetails at h
  cases hid : obj.physicalId.truthy with
  | false =>
    rw [if_pos (by simp [hid])] at h
    cases h
    exact .inl rfl
  | true =>
    rw [if_neg (by simp [hid])] at h
    cases session with
    | error e => cases h
    | ok _ =>
      cases hdetails : capsuleDetails answer obj with
      | error e =>
        simp only [Except.map, hdetails] at h
        cases h
        exact .inr (.inl ⟨e, rfl⟩)
      | ok v =>
        simp only [Except.map, hdetails] at h
        cases h
        exact (capsuleDetails_cases hdetails).imp_right fun hv => .inr ⟨rfl, rfl, hv⟩

end Details

/-! ### Atomicity -/

/-- Octavia is asked for the member: the subnet, the profile and an address of the capsule on
the subnet are had, and the load balancer is ready. -/
structure Asked (a : Answers) (node : Node) (subnet : Subnet) (capsule : Mapping) : Prop where
  neutron : a.subnet = .ok subnet
  profile : a.profile = .ok ()
  physicalId : node.physicalId.truthy = true
  session : a.session = .ok ()
  reports : Reports a.capsule capsule
  noError : (Mapping.get capsule "Error").truthy = false
  onSubnet : ∃ address, OnSubnet capsule subnet address
  ready : a.readyBefore = .ok true

/-- Octavia stores the member, and then the request for it fails, its answer has no id, or the
load balancer does not become ready. -/
def StoredThenFails (a : Answers) : Prop :=
  (∃ e id, a.creation = .raised e (some id)) ∨
    ∃ id, a.creation = .created id ∧ (id.isNone = true ∨ a.readyAfter ≠ .ok true)

/-- What is returned is the id of a member with an address of the capsule on the pool's subnet,
or nothing, and then the members are as before and an error is recorded for the node. -/
def Atomic (d : Driver) (a : Answers) (node : Node) (poolId port : Value) (r : Value × Driver) :
    Prop :=
  (r.1.isNone = false ∧ ∃ member subnet capsule, r.2.members = d.members ++ [member] ∧
    member.id = r.1 ∧ member.poolId = poolId ∧ member.port = port ∧ member.subnetId = subnet.id ∧
    a.subnet = .ok subnet ∧ Reports a.capsule capsule ∧ OnSubnet capsule subnet member.address) ∨
  (r.1.isNone = true ∧ r.2.members = d.members ∧
    ∃ reason, r.2.memberErrors = Dict.set d.memberErrors (key node.ident) reason)

section Add

variable {d : Driver} {a : Answers} {node : Node} {lbId poolId port : Value}
  {subnet : Subnet} {capsule : Mapping} {request : MemberRequest}

theorem doGetDetails_of_asked (h : Asked a node subnet capsule) :
    doGetDetails a.session a.capsule node = .ok (detailsOf capsule node) := by
  unfold doGetDetails
  rw [if_neg (by simp [h.physicalId]), h.session, capsuleDetails_of_reports h.reports h.noError]
  rfl

theorem getItem_detailsOf_error : getItem (detailsOf capsule node) "Error" .none = .ok .none := by
  simp [getItem, detailsOf, Dict.get?]

theorem getItem_detailsOf_addresses : getItem (detailsOf capsule node) "addresses" .none =
    .ok ((Mapping.get capsule "addresses").orElse (.dict [])) := by
  simp [getItem, detailsOf, Dict.get?]

theorem getItem_detailsOf_name : getItem (detailsOf capsule node) "name" .none =
    .ok ((Mapping.get capsule "name").orElse node.name) := by
  simp [getItem, detailsOf, Dict.get?]

theorem prepare_of_asked (h : Asked a node subnet capsule) (lbId poolId port : Value) :
    ∃ request, prepare a node lbId poolId port = .ok request := by
  obtain ⟨address, haddress⟩ := h.onSubnet
  obtain ⟨address, hfound⟩ := Option.ne_none_iff_exists'.1 (addressForSubnet_ne_none haddress)
  have hnone : Value.none.truthy = false := rfl
  simp only [prepare, attempt, Except.mapError, bind, Except.bind, h.neutron, h.profile, h.ready,
    doGetDetails_of_asked h, getItem_detailsOf_error, getItem_detailsOf_addresses,
    getItem_detailsOf_name, addressForSubnet_orElse, hfound, hnone, Bool.false_eq_true, if_false,
    if_true]
  exact ⟨_, rfl⟩

theorem attempt_bind_eq_ok {α β : Type} {r : Except Failure α} {k : α → Except Stop β} {b : β} :
    (attempt r >>= k) = .ok b ↔ ∃ x, r = .ok x ∧ k x = .ok b := by
  rw [bind_eq_ok]
  cases r with
  | error e => simp [attempt, Except.mapError]
  | ok x => simp [attempt, Except.mapError]

/-- The member is asked for with an address of the capsule, and only where it can be. -/
theorem asked_of_prepare (h : prepare a node lbId poolId port = .ok request) :
    ∃ subnet capsule, Asked a node subnet capsule ∧ OnSubnet capsule subnet request.address ∧
      request.poolId = poolId ∧ request.port = port ∧ request.subnetId = subnet.id := by
  obtain ⟨subnet, hsubnet, h⟩ := attempt_bind_eq_ok.1 h
  obtain ⟨_, hprofile, h⟩ := attempt_bind_eq_ok.1 h
  obtain ⟨details, hdetails, h⟩ := attempt_bind_eq_ok.1 h
  obtain ⟨error, herror, h⟩ := attempt_bind_eq_ok.1 h
  split_ifs at h with htruthy
  · obtain ⟨message, -, h⟩ := attempt_bind_eq_ok.1 h
    cases h
  · obtain ⟨addresses, haddresses, h⟩ := attempt_bind_eq_ok.1 h
    cases hfound : addressForSubnet (addresses.orElse (.dict [])) subnet with
    | none =>
      rw [hfound] at h
      cases h
    | some address =>
      rw [hfound] at h
      obtain ⟨ready, hready, h⟩ := attempt_bind_eq_ok.1 h
      split_ifs at h with htrue
      obtain ⟨name, -, h⟩ := attempt_bind_eq_ok.1 h
      cases h
      rw [htrue] at hready
      rcases doGetDetails_cases hdetails with rfl | ⟨e, rfl⟩ | ⟨hid, hsession, capsule, hreports,
        hnoError, rfl⟩
      · cases haddresses
        cases hfound
      · cases herror
        exact absurd rfl htruthy
      · rw [getItem_detailsOf_addresses] at haddresses
        cases haddresses
        rw [addressForSubnet_orElse, addressForSubnet_orElse] at hfound
        have haddress := onSubnet_of_addressForSubnet hfound
        exact ⟨subnet, capsule, ⟨hsubnet, hprofile, hid, hsession, hreports, hnoError,
          ⟨_, haddress⟩, hready⟩, haddress, rfl, rfl, rfl⟩

theorem awaitMember_eq_ok : awaitMember a node lbId = .ok () ↔ a.readyAfter = .ok true := by
  unfold awaitMember
  cases hready : a.readyAfter with
  | error e => exact iff_of_false (fun h => by cases h) fun h => by cases h
  | ok ready =>
    cases ready with
    | false => exact iff_of_false (fun h => by cases h) fun h => by cases h
    | true => exact iff_of_true rfl rfl

/-- After the member is stored, nothing but its id is returned, and the member stays. -/
theorem memberAdd_of_storedThenFails (h : Asked a node subnet capsule)
    (hfails : StoredThenFails a) (d : Driver) (lbId poolId port : Value) :
    (memberAdd d a node lbId poolId port).1.isNone = true ∧
      (memberAdd d a node lbId poolId port).2.members ≠ d.members := by
  obtain ⟨request, hprepare⟩ := prepare_of_asked h lbId poolId port
  rcases hfails with ⟨e, id, hcreation⟩ | ⟨id, hcreation, hid⟩
  · simp only [memberAdd, hprepare, hcreation]
    exact ⟨rfl, by simp [Driver.recordError, Driver.store]⟩
  · cases hawait : awaitMember a node lbId with
    | error stop =>
      simp only [memberAdd, hprepare, hcreation, hawait]
      exact ⟨rfl, by simp [Driver.recordError, Driver.store]⟩
    | ok _ =>
      simp only [memberAdd, hprepare, hcreation, hawait]
      exact ⟨hid.resolve_right (not_not.2 (awaitMember_eq_ok.1 hawait)),
        by simp [Driver.store]⟩

theorem not_atomic_of_stored {r : Value × Driver} (hnone : r.1.isNone = true)
    (hmembers : r.2.members ≠ d.members) : ¬Atomic d a node poolId port r := by
  rintro (⟨hsome, -⟩ | ⟨-, hsame, -⟩)
  · rw [hnone] at hsome
    cases hsome
  · exact hmembers hsame

theorem atomic_of_recorded {r : Value × Driver} (reason : String) (hvalue : r.1 = .none)
    (hdriver : r.2 = d.recordError node reason) : Atomic d a node poolId port r :=
  .inr ⟨by rw [hvalue]; rfl, by rw [hdriver]; rfl, reason, by rw [hdriver]; rfl⟩

end Add

/-- Over all answers of the services: the addition is atomic exactly if Octavia is not asked, or
it does not store the member before the call fails. -/
theorem memberAdd_atomic_iff (d : Driver) (a : Answers) (node : Node) (lbId poolId port : Value) :
    Atomic d a node poolId port (memberAdd d a node lbId poolId port) ↔
      ¬((∃ subnet capsule, Asked a node subnet capsule) ∧ StoredThenFails a) := by
  constructor
  · rintro hatomic ⟨⟨subnet, capsule, hasked⟩, hfails⟩
    obtain ⟨hnone, hmembers⟩ := memberAdd_of_storedThenFails hasked hfails d lbId poolId port
    exact not_atomic_of_stored hnone hmembers hatomic
  · intro h
    cases hprepare : prepare a node lbId poolId port with
    | error stop =>
      refine atomic_of_recorded (stop.reason node poolId) ?_ ?_ <;>
        simp only [memberAdd, hprepare]
    | ok request =>
      obtain ⟨subnet, capsule, hasked, honSubnet, hpool, hport, hsubnetId⟩ :=
        asked_of_prepare hprepare
      have hsafe : ¬StoredThenFails a := fun hfails => h ⟨⟨subnet, capsule, hasked⟩, hfails⟩
      cases hcreation : a.creation with
      | raised e stored =>
        cases stored with
        | some id => exact absurd (.inl ⟨e, id, hcreation⟩) hsafe
        | none =>
          refine atomic_of_recorded ((Stop.raised e).reason node poolId) ?_ ?_ <;>
            simp only [memberAdd, hprepare, hcreation, Option.elim_none]
      | created id =>
        have hid : id.isNone = false := by
          by_contra hid
          exact hsafe (.inr ⟨id, hcreation, .inl (by simpa using hid)⟩)
        have hready : a.readyAfter = .ok true := by
          by_contra hready
          exact hsafe (.inr ⟨id, hcreation, .inr hready⟩)
        have hrun : memberAdd d a node lbId poolId port = (id, d.store request id) := by
          simp only [memberAdd, hprepare, hcreation, awaitMember_eq_ok.2 hready]
        rw [hrun]
        exact .inl ⟨hid, _, subnet, capsule, rfl, rfl, hpool, hport, hsubnetId, hasked.neutron,
          hasked.reports, honSubnet⟩

/-- A capsule with one address, on the subnet `s-1`. -/
def smallCapsule : Mapping :=
  [(.str "addresses", .record [("n-1", .list [.record [("subnet_id", .str "s-1"),
    ("version", .int 4), ("addr", .str "192.0.2.8")]])])]

/-- The member is created, and the load balancer does not become ready after it. -/
def unreadyAfter : Answers where
  subnet := .ok ⟨.str "s-1", .int 4⟩
  profile := .ok ()
  session := .ok ()
  capsule := .ok ⟨200, true, .ok (.dict smallCapsule), ""⟩
  readyBefore := .ok true
  creation := .created (.str "m-1")
  readyAfter := .ok false

theorem asked_unreadyAfter :
    Asked unreadyAfter ⟨some (.str "i-1"), none, .str "web", .str "c-1"⟩
      ⟨.str "s-1", .int 4⟩ smallCapsule where
  neutron := rfl
  profile := rfl
  physicalId := rfl
  session := rfl
  reports := by
    refine ⟨⟨200, true, .ok (.dict smallCapsule), ""⟩, rfl, ?_⟩
    simp [Response.responseJson, capsulePart, smallCapsule, Except.map, Dict.get?]
  noError := by simp [Mapping.get, smallCapsule, Dict.get?, Value.truthy]
  onSubnet := by
    refine ⟨.str "192.0.2.8", _, rfl, _, List.mem_singleton_self _, _, List.mem_singleton_self _, ?_⟩
    simp [Mapping.get, Dict.get?, Value.toStr, Value.truthy]
  ready := rfl

/-- The member stays, and nothing is returned. -/
theorem not_atomic_unreadyAfter : ¬∀ (d : Driver) (a : Answers) (node : Node)
    (lbId poolId port : Value), Atomic d a node poolId port (memberAdd d a node lbId poolId port) := by
  intro h
  have hfails : StoredThenFails unreadyAfter :=
    .inr ⟨.str "m-1", rfl, .inr fun hready => by cases hready⟩
  obtain ⟨hnone, hmembers⟩ := memberAdd_of_storedThenFails asked_unreadyAfter hfails ⟨[], []⟩
    (.str "l-1") (.str "q-1") (.int 80)
  exact not_atomic_of_stored hnone hmembers (h _ _ _ _ _ _)

end Yggdrasil.Capsule
