import Mathlib.Data.List.TakeWhile
import Yggdrasil.Mongo.Tasks

/-! The `host:port` texts that name a member, and the host that a guest reads out of one. The
API and the task manager write them alike and without brackets; the guest takes brackets for
the sign of an IPv6 literal and otherwise cuts at a single colon. -/

namespace Yggdrasil.Mongo

open Effect Effect.Process Python

/-- The text that names a member. -/
def memberText (conf : MongoConf) (address : String) : String :=
  address ++ ":" ++ toString conf.mongodbPort

/-- An address without a colon and not in brackets. -/
def Plain (address : String) : Prop :=
  ':' ∉ address.toList ∧ ¬(address.toList.head? = some '[' ∧ ']' ∈ address.toList)

/-- What the action returns about an instance with this address is read back as the address. -/
def ReadsBack (p : Action String) (id address : String) : Prop :=
  ∀ s text s' others, Exec world p s (.value text) s' →
    s'.log = s.log ++ [⟨.visibleAddresses id, .ok (address :: others)⟩] →
      mongoshHost (.str text) = address

/-! ### Reading a text -/

theorem toList_memberText (conf : MongoConf) (address : String) :
    (memberText conf address).toList =
      address.toList ++ ':' :: Nat.toDigits 10 conf.mongodbPort := by
  unfold memberText
  rw [String.toList_append, String.toList_append, List.append_assoc]
  exact congrArg (fun l => address.toList ++ ':' :: l) Nat.toList_repr

theorem notMem_toDigits {c : Char} (hc : c.isDigit = false) (n : ℕ) : c ∉ Nat.toDigits 10 n := by
  intro h
  have hd := Nat.isDigit_of_mem_toDigits (by decide) (by decide) h
  rw [hc] at hd
  cases hd

theorem hostText_str (s : String) : hostText (.str s) = s := by
  unfold hostText Value.orElse
  split_ifs with h
  · rfl
  · have hs : s = "" := by simpa [Value.truthy] using h
    rw [hs]
    rfl

/-- Brackets around the text are brackets around the address. -/
theorem bracketed_iff (address digits : List Char) (hd : ']' ∉ digits) :
    ((address ++ ':' :: digits).head? = some '[' ∧ ']' ∈ address ++ ':' :: digits) ↔
      (address.head? = some '[' ∧ ']' ∈ address) := by
  cases address with
  | nil => simp
  | cons c cs => simp [hd]

theorem takeWhile_colon {address : List Char} (h : ':' ∉ address) (digits : List Char) :
    (address ++ ':' :: digits).takeWhile (· != ':') = address := by
  rw [List.takeWhile_append_of_pos fun c hc => by
    simpa using fun he : c = ':' => h (he ▸ hc)]
  simp

theorem mongoshHost_memberText_iff (conf : MongoConf) (address : String) :
    mongoshHost (.str (memberText conf address)) = address ↔ Plain address := by
  have hbracket := bracketed_iff address.toList _
    (notMem_toDigits (c := ']') (by decide) conf.mongodbPort)
  have hcount : (address.toList ++ ':' :: Nat.toDigits 10 conf.mongodbPort).count ':' =
      address.toList.count ':' + 1 := by
    rw [List.count_append, List.count_cons_self,
      List.count_eq_zero.2 (notMem_toDigits (c := ':') (by decide) _)]
  unfold mongoshHost Plain
  simp only [hostText_str, toList_memberText, hbracket, hcount]
  by_cases hb : address.toList.head? = some '[' ∧ ']' ∈ address.toList
  · -- the address has a bracket that the host read from it has not
    rw [if_pos hb]
    refine iff_of_false (fun heq => ?_) fun h => h.2 hb
    have hmem := hb.2
    rw [← heq, String.toList_ofList] at hmem
    simpa using List.mem_takeWhile_imp hmem
  · rw [if_neg hb]
    by_cases hc : ':' ∈ address.toList
    · have hpos := List.count_pos_iff.2 hc
      rw [if_neg (by omega)]
      refine iff_of_false (fun heq => ?_) fun h => h.1 hc
      have hlen := congrArg (fun s => s.toList.length) heq
      simp only [String.toList_ofList, List.length_append, List.length_cons] at hlen
      omega
    · rw [List.count_eq_zero.2 hc, if_pos rfl, takeWhile_colon hc, String.ofList_toList]
      exact iff_of_true rfl ⟨hc, hb⟩

/-! ### The actions -/

section Actions

variable {conf : MongoConf} {id : String} {f : List String → Action String}

/-- The text an action makes is the one of the first address it is told. -/
theorem exec_memberText (hnil : ∃ message, f [] = fail message)
    (hcons : ∀ address others, f (address :: others) = pure (memberText conf address))
    {s s' : Run} {text : String}
    (h : Exec world (ask (.visibleAddresses id) >>= f) s (.value text) s') :
    ∃ address others, s'.log = s.log ++ [⟨.visibleAddresses id, .ok (address :: others)⟩] ∧
      text = memberText conf address := by
  rcases exec_bind h with ⟨addresses, s₁, hask, hrest⟩ | ⟨x, ho, -⟩ | ⟨ho, -⟩
  · rcases exec_call.1 hask with ⟨ho, -⟩ | ⟨r, s₂, hw, hr⟩
    · cases ho
    cases r with
    | error x => cases (exec_raise hr).2 <;> contradiction
    | ok answer =>
      obtain ⟨rfl, ho⟩ := exec_ret hr
      have hanswer : addresses = answer := by simpa using ho
      subst hanswer
      cases addresses with
      | nil =>
        obtain ⟨message, hfail⟩ := hnil
        rw [hfail] at hrest
        cases (exec_raise hrest).2 <;> contradiction
      | cons address others =>
        rw [hcons] at hrest
        obtain ⟨rfl, ho⟩ := exec_ret hrest
        exact ⟨address, others, hw.2, by simpa using ho⟩
  · cases ho
  · cases ho

theorem readsBack_bind_iff (hnil : ∃ message, f [] = fail message)
    (hcons : ∀ address others, f (address :: others) = pure (memberText conf address))
    (address : String) :
    ReadsBack (ask (.visibleAddresses id) >>= f) id address ↔ Plain address := by
  rw [← mongoshHost_memberText_iff conf]
  constructor
  · intro h
    have hw : world ⟨⟨[], []⟩, []⟩ (.visibleAddresses id) (.ok [address])
        ⟨⟨[], []⟩, [⟨.visibleAddresses id, .ok [address]⟩]⟩ := ⟨rfl, rfl⟩
    have hrun : ∀ s, Exec world (f [address]) s (.value (memberText conf address)) s := by
      intro s
      rw [hcons]
      exact .ret _ _
    exact h _ _ _ [] (Exec.bind (Exec.perform hw) (hrun _)) rfl
  · intro heq s text s' others hrun hlog
    obtain ⟨address', others', hlog', rfl⟩ := exec_memberText hnil hcons hrun
    have hlast := List.append_cancel_left (hlog'.symm.trans hlog)
    have hboth : address' = address := by
      cases hlast
      rfl
    rw [hboth]
    exact heq

end Actions

/-- The guest reads a member's address back exactly if the address is plain: a host name or an
IPv4 address, and no IPv6 literal. -/
theorem readsBack_iff (conf : MongoConf) (i : Instance) (address : String) :
    (ReadsBack (memberAddress conf i.id) i.id address ↔ Plain address) ∧
      (ReadsBack (Mongo.address conf i) i.id address ↔ Plain address) :=
  ⟨readsBack_bind_iff ⟨_, rfl⟩ (fun _ _ => rfl) address,
    readsBack_bind_iff ⟨_, rfl⟩ (fun _ _ => rfl) address⟩

/-- The colons of an IPv6 literal and the one before the port are not told apart. -/
theorem not_readsBack_ipv6 :
    ¬ReadsBack (memberAddress ⟨false, true, none, none, none, none, none, 30, 27017⟩ "m1") "m1"
      "fe80::1" := by
  intro h
  have hplain := (readsBack_bind_iff ⟨_, rfl⟩ (fun _ _ => rfl) "fe80::1").1 h
  exact hplain.1 (by decide)

end Yggdrasil.Mongo
