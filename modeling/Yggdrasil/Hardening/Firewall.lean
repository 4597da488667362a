import Mathlib.Data.List.Basic

/-! The INPUT chain that the hardening script builds. Its rules are appended one by one and the
first that matches a packet decides. How iptables reads an address argument and an additional
rule, and what it prints of a chain, are parameters. -/

namespace Yggdrasil.Hardening

inductive Protocol where
  | tcp | udp | icmp
  | other (number : ℕ)
  deriving DecidableEq

/-- The state of a packet for connection tracking. -/
inductive ConnState where
  | new | established | related | invalid | untracked
  deriving DecidableEq

inductive Verdict where
  | accept | drop | reject
  deriving DecidableEq

structure Packet where
  interface : String
  protocol : Protocol
  source : BitVec 32
  destinationPort : ℕ
  state : ConnState
  syn : Bool
  /-- The source address is within the rate of the rule for port 443. -/
  withinRate : Bool
  deriving DecidableEq

/-- An address with the length of its network part. -/
structure Network where
  address : BitVec 32
  length : ℕ
  deriving DecidableEq

def Network.contains (n : Network) (a : BitVec 32) : Bool := (a ^^^ n.address) >>> (32 - n.length) == 0

inductive Condition where
  | interface (name : String)
  | protocol (p : Protocol)
  | source (n : Network)
  | destinationPort (port : ℕ)
  | state (states : List ConnState)
  | syn
  | withinRate
  | other (test : Packet → Bool)

def Condition.holds (p : Packet) : Condition → Bool
  | .interface name => p.interface == name
  | .protocol q => p.protocol == q
  | .source n => n.contains p.source
  | .destinationPort n => p.destinationPort == n
  | .state states => states.contains p.state
  | .syn => p.syn
  | .withinRate => p.withinRate
  | .other test => test p

inductive Target where
  | verdict (v : Verdict)
  /-- A chain or an extension that may leave the packet to the rules that follow. -/
  | jump (chain : Packet → Option Verdict)

structure Rule where
  conditions : List Condition
  target : Target

def Rule.verdict (p : Packet) (r : Rule) : Option Verdict :=
  if r.conditions.all (Condition.holds p) then
    match r.target with
    | .verdict v => some v
    | .jump chain => chain p
  else none

/-- The first rule that decides, and the policy if there is none. -/
def verdict (policy : Verdict) (chain : List Rule) (p : Packet) : Verdict :=
  (chain.findSome? (Rule.verdict p)).getD policy

/-! ### The script -/

/-- An element of the script's array: its text, and the rules that iptables appends for it. -/
structure Line where
  text : String
  rules : List Rule

structure Environment where
  openstackMgmtNet : String
  cephPublicNet : String
  cephClusterNet : String
  networkProviderNets : String
  deploymentNodeIps : String
  vpnNet : String
  /-- The lines of the file that `ADDITIONAL_IPTABLE_RULES_FILE` names, if it is set and exists. -/
  additionalIptableRulesFile : Option (Option (List String))

/-- The words of an unquoted expansion. -/
def words (s : String) : List String :=
  ((s.toList.splitOnP fun c => c == ' ' || c == '\t' || c == '\n').filter (!·.isEmpty)).map
    String.ofList

/-- `[[:space:]]`. -/
def isBlank (c : Char) : Bool :=
  c == ' ' || c == '\t' || c == '\n' || c == '\r' || c == '\x0b' || c == '\x0c'

section Script

variable (networks : String → List Network) (parse : String → List Rule)
  (shown : List Rule → String → Bool)

def rule (arguments : String) (conditions : List Condition) (v : Verdict) (comment : String) :
    Line :=
  ⟨"\\-A INPUT " ++ arguments ++ " -m comment --comment '" ++ comment ++ "'",
    [⟨conditions, .verdict v⟩]⟩

/-- A rule for a source, which iptables appends for every network of the argument. -/
def sourceRule (net arguments : String) (conditions : List Condition) (v : Verdict)
    (comment : String) : Line :=
  ⟨"\\-A INPUT -s " ++ net ++ " " ++ arguments ++ " -m comment --comment '" ++ comment ++ "'",
    (networks net).map fun n => ⟨.source n :: conditions, .verdict v⟩⟩

def allowLoopback : Line :=
  rule "-i lo -j ACCEPT" [.interface "lo"] .accept "allow loopback, needed for dns purposes"

def allowPing : Line := rule "-p icmp -j ACCEPT" [.protocol .icmp] .accept "allow ping"

def allowEstablished : Line :=
  rule "-m conntrack --ctstate RELATED,ESTABLISHED -j ACCEPT" [.state [.related, .established]]
    .accept "allow established connections"

def allowSsh : Line :=
  rule "-p tcp -m tcp --dport 22 -j ACCEPT" [.protocol .tcp, .destinationPort 22] .accept
    "allow ssh from other networks"

def limitConsole : Line :=
  rule ("-p tcp --dport 443 -m state --state NEW --syn -m hashlimit --hashlimit 15/s " ++
      "--hashlimit-burst 30 --hashlimit-mode srcip --hashlimit-srcmask 32 " ++
      "--hashlimit-name synattack -j ACCEPT")
    [.protocol .tcp, .destinationPort 443, .state [.new], .syn, .withinRate] .accept
    "limit new syn connections to port 443 (yggdrasil console)"

def allowNovaConsole : Line :=
  rule "-p tcp --dport 8443 -j ACCEPT" [.protocol .tcp, .destinationPort 8443] .accept
    "allow nova console access"

def allowLxd : Line :=
  rule "-i lxdbr0 -j ACCEPT" [.interface "lxdbr0"] .accept "allow lxd bridge traffic for dev vms"

def allowNetwork (net comment : String) : Line := sourceRule networks net "-j ACCEPT" [] .accept comment

def blockSsh (net : String) : Line :=
  sourceRule networks net "-p tcp -m tcp --dport 22 -j DROP" [.protocol .tcp, .destinationPort 22]
    .drop ("block ssh from " ++ net)

def allowNode (net : String) : Line :=
  allowNetwork networks net ("allow traffic from deployment node " ++ net)

def providerRules (net : String) : List Line := [blockSsh networks net, allowNode networks net]

/-- Blank lines and comments are skipped. -/
def additionalRule (line : String) : Option Line :=
  if line.toList.all isBlank || line.toList.head? == some '#' then none
  else some ⟨line, parse line⟩

def builtinRules (e : Environment) : List Line :=
  [allowLoopback, allowPing, allowEstablished, allowSsh,
    allowNetwork networks e.openstackMgmtNet "allow openstack management network",
    allowNetwork networks e.cephPublicNet "allow ceph public network",
    allowNetwork networks e.cephClusterNet "allow ceph cluster network",
    allowNetwork networks e.vpnNet "allow vpn network",
    limitConsole, allowNovaConsole, allowLxd] ++
  (words e.networkProviderNets).flatMap (providerRules networks) ++
  (words e.deploymentNodeIps).map (allowNode networks)

/-- The array of rules, unless the script exits before it changes anything. -/
def rules (e : Environment) : Option (List Line) :=
  if e.openstackMgmtNet = "" ∨ e.cephPublicNet = "" ∨ e.cephClusterNet = "" ∨
      e.networkProviderNets = "" ∨ e.deploymentNodeIps = "" then none
  else match e.additionalIptableRulesFile with
    | none => some (builtinRules networks e)
    | some none => none
    | some (some lines) => some (builtinRules networks e ++ lines.filterMap (additionalRule parse))

/-- A rule is appended unless `iptables-save` shows its text already. -/
def addRule (chain : List Rule) (line : Line) : List Rule :=
  if shown chain line.text then chain else chain ++ line.rules

/-- The chain, which is flushed first. -/
def inputChain (e : Environment) : Option (List Rule) :=
  (rules networks parse e).map (List.foldl (addRule shown) [])

end Script

/-! ### Packets for port 22 -/

variable {networks : String → List Network} {parse : String → List Rule}
  {shown : List Rule → String → Bool} {e : Environment} {p : Packet} {chain : List Rule}

/-- The argument of `-s` stands for a network with the address. -/
def Within (networks : String → List Network) (net : String) (a : BitVec 32) : Prop :=
  ∃ n ∈ networks net, n.contains a = true

/-- A new connection to port 22 from a provider network, and from none of the others. -/
structure SshFromProvider (networks : String → List Network) (e : Environment) (p : Packet) :
    Prop where
  protocol : p.protocol = .tcp
  port : p.destinationPort = 22
  state : p.state = .new
  loopback : p.interface ≠ "lo"
  lxd : p.interface ≠ "lxdbr0"
  provider : ∃ net ∈ words e.networkProviderNets, Within networks net p.source
  management : ¬Within networks e.openstackMgmtNet p.source
  cephPublic : ¬Within networks e.cephPublicNet p.source
  cephCluster : ¬Within networks e.cephClusterNet p.source
  vpn : ¬Within networks e.vpnNet p.source

/-- The script only appends rules of its lines. -/
theorem foldl_addRule (shown : List Rule → String → Bool) (lines : List Line) (chain : List Rule) :
    ∃ added, lines.foldl (addRule shown) chain = chain ++ added ∧
      ∀ r ∈ added, ∃ line ∈ lines, r ∈ line.rules := by
  induction lines generalizing chain with
  | nil => exact ⟨[], (List.append_nil chain).symm, fun r hr => by simp at hr⟩
  | cons line lines ih =>
    obtain ⟨added, hadded, hmem⟩ := ih (addRule shown chain line)
    rw [List.foldl_cons, hadded]
    unfold addRule
    split_ifs
    · exact ⟨added, rfl, fun r hr => (hmem r hr).imp fun l hl => ⟨List.mem_cons_of_mem _ hl.1, hl.2⟩⟩
    · refine ⟨line.rules ++ added, List.append_assoc _ _ _, fun r hr => ?_⟩
      rcases List.mem_append.1 hr with hr | hr
      · exact ⟨line, List.mem_cons_self, hr⟩
      · exact (hmem r hr).imp fun l hl => ⟨List.mem_cons_of_mem _ hl.1, hl.2⟩

/-- Rules that leave the packet alone do not change its verdict. -/
theorem verdict_append {policy : Verdict} {before after : List Rule}
    (h : ∀ r ∈ before, r.verdict p = none) :
    verdict policy (before ++ after) p = verdict policy after p := by
  unfold verdict
  rw [List.findSome?_append, List.findSome?_eq_none_iff.2 h, Option.none_or]

/-- A rule that decides hides the rules after it. -/
theorem verdict_cons {policy v : Verdict} {r : Rule} {after : List Rule}
    (h : r.verdict p = some v) : verdict policy (r :: after) p = v := by
  unfold verdict
  rw [List.findSome?_cons_of_isSome (h ▸ rfl), h]
  rfl

/-- The lines before the rule for ssh leave such a packet alone. -/
theorem leading_leave (h : SshFromProvider networks e p) {line : Line}
    (hline : line ∈ [allowLoopback, allowPing, allowEstablished]) {r : Rule} (hr : r ∈ line.rules) :
    r.verdict p = none := by
  simp only [List.mem_cons, List.not_mem_nil, or_false] at hline
  rcases hline with rfl | rfl | rfl
  all_goals
    simp only [allowLoopback, allowPing, allowEstablished, rule, List.mem_singleton] at hr
    rw [hr]
  · simp [Rule.verdict, Condition.holds, h.loopback]
  · simp [Rule.verdict, Condition.holds, h.protocol]
  · simp [Rule.verdict, Condition.holds, h.state]

/-- The rule for ssh comes before the rules of the provider networks, so it accepts every new
connection from them. -/
theorem ssh_from_provider_accepted (networks : String → List Network)
    (parse : String → List Rule) (shown : List Rule → String → Bool)
    -- `iptables-save` prints a comment in double quotes, not as the script's text has it
    (hshown : ∀ chain, shown chain allowSsh.text = false) (e : Environment) (chain : List Rule)
    (hchain : inputChain networks parse shown e = some chain) (p : Packet)
    (hp : SshFromProvider networks e p) : verdict .drop chain p = .accept := by
  obtain ⟨lines, hlines, rfl⟩ := Option.map_eq_some_iff.1 hchain
  have hstart : ∃ rest, lines = [allowLoopback, allowPing, allowEstablished] ++ allowSsh :: rest := by
    unfold rules at hlines
    split_ifs at hlines
    split at hlines
    · exact ⟨_, (Option.some.inj hlines).symm⟩
    · cases hlines
    · exact ⟨_, (Option.some.inj hlines).symm⟩
  obtain ⟨rest, rfl⟩ := hstart
  rw [List.foldl_append, List.foldl_cons]
  obtain ⟨before, hbefore, hmem⟩ :=
    foldl_addRule shown [allowLoopback, allowPing, allowEstablished] []
  rw [hbefore, addRule, hshown]
  obtain ⟨after, hafter, -⟩ := foldl_addRule shown rest (([] ++ before) ++ allowSsh.rules)
  rw [if_neg Bool.false_ne_true, hafter, List.nil_append, List.append_assoc, verdict_append]
  · apply verdict_cons
    simp [Rule.verdict, Condition.holds, hp.protocol, hp.port]
  · intro r hr
    obtain ⟨line, hline, hrule⟩ := hmem r hr
    exact leading_leave hp hline hrule

/-- The configuration of the script's test, with its addresses as iptables reads them. -/
def testEnvironment : Environment where
  openstackMgmtNet := "10.0.10.0/24"
  cephPublicNet := "10.0.50.0/24"
  cephClusterNet := "10.0.60.0/24"
  networkProviderNets := "192.168.150.0/24"
  deploymentNodeIps := "10.0.10.11"
  vpnNet := "10.84.0.0/24"
  additionalIptableRulesFile := none

def testNetworks (text : String) : List Network :=
  match text with
  | "10.0.10.0/24" => [⟨0x0a000a00, 24⟩]
  | "10.0.50.0/24" => [⟨0x0a003200, 24⟩]
  | "10.0.60.0/24" => [⟨0x0a003c00, 24⟩]
  | "192.168.150.0/24" => [⟨0xc0a89600, 24⟩]
  | "10.0.10.11" => [⟨0x0a000a0b, 32⟩]
  | "10.84.0.0/24" => [⟨0x0a540000, 24⟩]
  | _ => []

def testPacket : Packet := ⟨"bond0", .tcp, 0xc0a89607, 22, .new, true, true⟩

theorem testPacket_from_provider : SshFromProvider testNetworks testEnvironment testPacket := by
  refine ⟨rfl, rfl, rfl, by decide, by decide, ⟨"192.168.150.0/24", by decide, _,
    List.mem_singleton_self _, by decide⟩, ?_, ?_, ?_, ?_⟩
  all_goals simp only [Within]; decide

theorem testPacket_accepted : ∃ chain,
    inputChain testNetworks (fun _ => []) (fun _ _ => false) testEnvironment = some chain ∧
      verdict .drop chain testPacket = .accept :=
  ⟨_, rfl, ssh_from_provider_accepted testNetworks (fun _ => []) (fun _ _ => false) (fun _ => rfl)
    testEnvironment _ rfl testPacket testPacket_from_provider⟩

theorem ssh_from_provider_not_dropped :
    ¬∀ (networks : String → List Network) (parse : String → List Rule)
      (shown : List Rule → String → Bool) (e : Environment) (chain : List Rule),
      (∀ chain, shown chain allowSsh.text = false) →
      inputChain networks parse shown e = some chain → ∀ p, SshFromProvider networks e p →
        verdict .drop chain p = .drop := by
  intro h
  have hdrop := h testNetworks (fun _ => []) (fun _ _ => false) testEnvironment _ (fun _ => rfl) rfl
    testPacket testPacket_from_provider
  exact absurd hdrop (by decide)

end Yggdrasil.Hardening
