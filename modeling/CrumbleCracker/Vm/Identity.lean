import CrumbleCracker.Lib.Bytes
import CrumbleCracker.Lib.Tables
import CrumbleCracker.Lib.Turns

/-!
# The network identities of VMs

Two allocators give VMs their addresses: `linuxVirtualSwitch`, which keeps leases until an endpoint is attached, and the
`Manager`, which fills in what a start's network configuration leaves open. Both look for a host number among the last
bytes of the addresses they know: the switch forgets the MAC addresses that were given explicitly, and the manager
everything that was.

* `Switch.apart_run`, `Manager.inv_run` : what runs keep whose calls are all `Fit`;
* `identities_distinct` : no two VMs share an address, and what is chosen is in the range.
-/

namespace CrumbleCracker.Vm.Network

open List

variable {g : UInt8}

abbrev Text : Type := List Char

section Texts

/-- `unicode.IsSpace`. -/
def isSpace (c : Char) : Bool :=
  let n := c.toNat
  (9 ≤ n && n ≤ 13) || n = 32 || n = 0x85 || n = 0xA0 || n = 0x1680 || (0x2000 ≤ n && n ≤ 0x200A) || n = 0x2028 ||
    n = 0x2029 || n = 0x202F || n = 0x205F || n = 0x3000

def trimSpace (t : Text) : Text := ((t.dropWhile isSpace).reverse.dropWhile isSpace).reverse

def defaultInstanceID : Text := ['d', 'e', 'f', 'a', 'u', 'l', 't']

def instanceID (id : Text) : Text := if trimSpace id = [] then defaultInstanceID else trimSpace id

end Texts

structure IPv4 where
  a : UInt8
  b : UInt8
  c : UInt8
  d : UInt8
  deriving DecidableEq

structure Identity where
  ip : IPv4
  mac : Bytes
  deriving DecidableEq

/-- What package `net` makes of trimmed texts and addresses. -/
structure Addressing where
  parseIPv4 : Text → Option IPv4
  parseMAC : Text → Option Bytes
  showIPv4 : IPv4 → Text
  showMAC : Bytes → Text
  parse_showIPv4 : ∀ ip, parseIPv4 (trimSpace (showIPv4 ip)) = some ip
  parse_showMAC : ∀ mac, mac.length = 6 → parseMAC (trimSpace (showMAC mac)) = some mac

structure NetworkConfig where
  enabled : Bool
  guestIPv4 : Text
  guestMAC : Text
  deriving DecidableEq

def hostIdentity (host : UInt8) : Identity := ⟨⟨10, 42, 0, host⟩, [0x02, 0x42, 0x0a, 0x2a, 0x00, host]⟩

/-- The host numbers that may be chosen. -/
def hosts : List UInt8 := (List.range' 2 253).map UInt8.ofNat

/-- The first host number from 2 on that is not used; the loop runs to 254 and leaves 255. -/
def freeHost (used : List UInt8) : UInt8 := (hosts.find? fun h => h ∉ used).getD 255

theorem freeHost_spec {used : List UInt8} (h : ∃ x ∈ hosts, x ∉ used) :
    freeHost used ∈ hosts ∧ freeHost used ∉ used := by
  unfold freeHost
  cases hf : hosts.find? fun h => h ∉ used with
  | none =>
    obtain ⟨x, hx, hu⟩ := h
    exact absurd (find?_eq_none.mp hf x hx) (by simpa using hu)
  | some x => exact ⟨mem_of_find?_eq_some hf, by simpa using find?_some hf⟩

variable {h : UInt8}

theorem hostIdentity_mac_inj (he : (hostIdentity g).mac = (hostIdentity h).mac) : g = h := by
  simpa [hostIdentity] using he

def lastBytes (t : Table Text Identity) : List UInt8 := t.entries.map fun e => e.2.ip.d

variable {id : Text} {x : Identity}

theorem mem_lastBytes {t : Table Text Identity} (h : t.lookup id = some x) : x.ip.d ∈ lastBytes t :=
  mem_map_of_mem (AList.mem_lookup_iff.mp h)

variable {cfg : NetworkConfig}

section Switch

structure Switch where
  leases : Table Text Identity
  endpoints : Table Text Identity

inductive SwitchCall
  | register (id : Text) (cfg : Option NetworkConfig)
  | attach (id : Text) (x : Identity)
  | unregister (id : Text)

def NetworkConfig.explicit (cfg : NetworkConfig) : Bool := trimSpace cfg.guestIPv4 ≠ [] || trimSpace cfg.guestMAC ≠ []

def NetworkConfig.identity (A : Addressing) (cfg : NetworkConfig) : Option Identity :=
  match A.parseIPv4 (trimSpace cfg.guestIPv4), A.parseMAC (trimSpace cfg.guestMAC) with
  | some ip, some mac => if mac.length = 6 then some ⟨ip, mac⟩ else none
  | _, _ => none

namespace Switch

variable (A : Addressing)

def empty : Switch := ⟨∅, ∅⟩

/-- Another id has one of the addresses. -/
def conflict (t : Table Text Identity) (id : Text) (x : Identity) : Bool :=
  t.entries.any fun e => e.1 ≠ id && (e.2.ip = x.ip || e.2.mac = x.mac)

/-- The last bytes an automatic registration keeps away from. -/
def used (s : Switch) : List UInt8 := 1 :: (lastBytes s.leases ++ lastBytes s.endpoints)

def registerExplicit (s : Switch) (id : Text) (cfg : NetworkConfig) : Option Identity × Switch :=
  match cfg.identity A with
  | none => (none, s)
  | some x =>
    if conflict s.leases id x then (none, s)
    else if conflict s.endpoints id x then (none, s)
    else (some x, { s with leases := s.leases.insert id x })

def registerFree (s : Switch) (id : Text) : Option Identity × Switch :=
  (some (hostIdentity (freeHost s.used)), { s with leases := s.leases.insert id (hostIdentity (freeHost s.used)) })

/-- `Register`: the lease, if there is no error, and the switch after it. -/
def register (s : Switch) (id : Text) (cfg : Option NetworkConfig) : Option Identity × Switch :=
  match cfg with
  | none => s.registerFree (instanceID id)
  | some cfg => if cfg.explicit then s.registerExplicit A (instanceID id) cfg else s.registerFree (instanceID id)

/-- `Attach` of a runtime with this id and identity. -/
def attach (s : Switch) (id : Text) (x : Identity) : Switch := ⟨s.leases.erase id, s.endpoints.insert id x⟩

def unregister (s : Switch) (id : Text) : Switch := ⟨s.leases.erase (instanceID id), s.endpoints.erase (instanceID id)⟩

def step (s : Switch) : SwitchCall → Switch
  | .register id cfg => (s.register A id cfg).2
  | .attach id x => s.attach id x
  | .unregister id => s.unregister id

/-- The id has the identity, as a lease or an endpoint. -/
def Has (s : Switch) (id : Text) (x : Identity) : Prop := s.leases.lookup id = some x ∨ s.endpoints.lookup id = some x

def Distinct (s : Switch) : Prop := ∀ i j x y, s.Has i x → s.Has j y → i ≠ j → x.ip ≠ y.ip ∧ x.mac ≠ y.mac

/-- A MAC address of the form that is chosen belongs to an address with its last byte. -/
def Paired (x : Identity) : Prop := ∀ h, x.mac = (hostIdentity h).mac → x.ip.d = h

/-- The calls for which the switch keeps its identities apart: an explicit MAC address that looks like a chosen one goes
with its address, a free registration finds a number, and a runtime is attached with what its id has leased. -/
def Fit (s : Switch) : SwitchCall → Prop
  | .register _ cfg => match cfg with
    | none => ∃ h ∈ hosts, h ∉ s.used
    | some cfg => if cfg.explicit then ∀ x, cfg.identity A = some x → Paired x else ∃ h ∈ hosts, h ∉ s.used
  | .attach id x => s.leases.lookup id = some x
  | .unregister _ => True

structure Apart (s : Switch) : Prop where
  distinct : s.Distinct
  paired : ∀ i x, s.Has i x → Paired x

variable {A} {s : Switch}

theorem Has.used {i : Text} (h : s.Has i x) : x.ip.d ∈ s.used :=
  mem_cons_of_mem _ (mem_append.mpr (h.imp mem_lastBytes mem_lastBytes))

theorem not_conflict {t : Table Text Identity} {i : Text} {y : Identity} (h : conflict t id x = false) (hi : i ≠ id)
    (hy : t.lookup i = some y) : y.ip ≠ x.ip ∧ y.mac ≠ x.mac := by
  unfold conflict at h
  have he := any_eq_false.mp h _ (AList.mem_lookup_iff.mp hy)
  simpa [hi] using he

theorem Apart.lease (h : s.Apart) (hp : Paired x) (hx : ∀ i y, s.Has i y → i ≠ id → y.ip ≠ x.ip ∧ y.mac ≠ x.mac) :
    Apart { s with leases := s.leases.insert id x } := by
  have hcases : ∀ i y, Has { s with leases := s.leases.insert id x } i y → (i = id ∧ y = x) ∨ s.Has i y := by
    rintro i y (hi | hi)
    · exact (Table.lookup_insert_some hi).imp_right fun h => .inl h.2
    · exact .inr (.inr hi)
  refine ⟨fun i j y z hi hj hne => ?_, fun i y hi => ?_⟩
  · rcases hcases i y hi with ⟨rfl, rfl⟩ | hi' <;> rcases hcases j z hj with ⟨rfl, rfl⟩ | hj'
    · exact absurd rfl hne
    · exact (hx j z hj' hne.symm).imp Ne.symm Ne.symm
    · exact hx i y hi' hne
    · exact h.distinct i j y z hi' hj' hne
  · rcases hcases i y hi with ⟨-, rfl⟩ | hi'
    · exact hp
    · exact h.paired i y hi'

theorem Apart.registerFree (h : s.Apart) (id : Text) (hfree : ∃ x ∈ hosts, x ∉ s.used) :
    (s.registerFree id).2.Apart := by
  obtain ⟨-, hused⟩ := freeHost_spec hfree
  refine h.lease (fun g hg => hostIdentity_mac_inj hg) fun i y hy _ => ⟨fun heq => hused ?_, fun heq => hused ?_⟩
  · have hd : y.ip.d = freeHost s.used := by rw [heq]; rfl
    exact hd ▸ hy.used
  · exact h.paired i y hy _ heq ▸ hy.used

theorem Apart.registerExplicit (h : s.Apart) (id : Text) (hp : ∀ x, cfg.identity A = some x → Paired x) :
    (s.registerExplicit A id cfg).2.Apart := by
  unfold Switch.registerExplicit
  split
  · exact h
  · next x hx =>
    split
    · exact h
    · next hl =>
      split
      · exact h
      · next he =>
        refine h.lease (hp x hx) fun i y hy hne => ?_
        rcases hy with hy | hy
        · exact not_conflict (by simpa using hl) hne hy
        · exact not_conflict (by simpa using he) hne hy

theorem Apart.mono (h : s.Apart) {t : Switch} (ht : ∀ i x, t.Has i x → s.Has i x) : t.Apart :=
  ⟨fun i j x y hi hj hne => h.distinct i j x y (ht i x hi) (ht j y hj) hne, fun i x hi => h.paired i x (ht i x hi)⟩

theorem Apart.step (h : s.Apart) {c : SwitchCall} (hc : s.Fit A c) : (s.step A c).Apart := by
  cases c with
  | register id cfg =>
    cases cfg with
    | none => exact h.registerFree _ hc
    | some cfg =>
      simp only [Fit, Switch.step, register] at hc ⊢
      split
      · exact h.registerExplicit _ (by simpa [*] using hc)
      · exact h.registerFree _ (by simpa [*] using hc)
  | attach id x =>
    refine h.mono ?_
    rintro i y (hy | hy)
    · exact .inl (Table.lookup_erase_some hy).2
    · rcases Table.lookup_insert_some hy with ⟨rfl, rfl⟩ | ⟨-, hy⟩
      · exact .inl hc
      · exact .inr hy
  | unregister id =>
    refine h.mono ?_
    rintro i y (hy | hy)
    · exact .inl (Table.lookup_erase_some hy).2
    · exact .inr (Table.lookup_erase_some hy).2

theorem empty_apart : empty.Apart := by
  have hno : ∀ i x, ¬empty.Has i x := by
    rintro i x (h | h) <;> cases h
  exact ⟨fun i _ x _ hi => absurd hi (hno i x), fun i x hi => absurd hi (hno i x)⟩

theorem apart_run {cs : List SwitchCall} (hcs : Throughout (step A) (Fit A) empty cs) :
    (runFrom (step A) empty cs).Apart :=
  hcs.invariant (fun _ _ h hc => h.step hc) empty_apart

theorem register_free {cfg : Option NetworkConfig} (hfit : s.Fit A (.register id cfg))
    (hcfg : ∀ c, cfg = some c → c.explicit = false) : ∃ h ∈ hosts, (s.register A id cfg).1 = some (hostIdentity h) := by
  cases cfg with
  | none => exact ⟨_, (freeHost_spec hfit).1, rfl⟩
  | some c =>
    have hc := hcfg c rfl
    simp only [Fit, hc, Bool.false_eq_true, if_false] at hfit
    refine ⟨_, (freeHost_spec hfit).1, ?_⟩
    simp only [register, hc, Bool.false_eq_true, if_false]
    rfl

end Switch

end Switch

section Manager

/-- A VM that is starting or running: the network configuration of its request, and the one it was started with. -/
structure VmNetwork where
  requested : Option NetworkConfig
  config : Option NetworkConfig

structure Manager where
  vms : Table Text VmNetwork
  networkLeases : Table Text Identity

inductive ManagerCall
  | start (id : Text) (cfg : Option NetworkConfig)
  | exit (id : Text)

namespace NetworkConfig

variable (A : Addressing)

def fill (cfg : NetworkConfig) (lease : Identity) : NetworkConfig where
  enabled := cfg.enabled
  guestIPv4 := if trimSpace cfg.guestIPv4 = [] then A.showIPv4 lease.ip else cfg.guestIPv4
  guestMAC := if trimSpace cfg.guestMAC = [] then A.showMAC lease.mac else cfg.guestMAC

/-- Nothing is left open. -/
def Complete (cfg : NetworkConfig) : Prop := trimSpace cfg.guestIPv4 ≠ [] ∧ trimSpace cfg.guestMAC ≠ []
deriving Decidable

def ip (cfg : NetworkConfig) : Option IPv4 := A.parseIPv4 (trimSpace cfg.guestIPv4)

def mac (cfg : NetworkConfig) : Option Bytes := A.parseMAC (trimSpace cfg.guestMAC)

/-- What is given is none of the addresses that may be filled in. -/
def Outside (cfg : NetworkConfig) : Prop :=
  (trimSpace cfg.guestIPv4 ≠ [] → ∀ h ∈ hosts, cfg.ip A ≠ some (hostIdentity h).ip) ∧
    (trimSpace cfg.guestMAC ≠ [] → ∀ h ∈ hosts, cfg.mac A ≠ some (hostIdentity h).mac)

variable {A} {cfg : NetworkConfig}

theorem ip_fill (h : trimSpace cfg.guestIPv4 = []) (x : Identity) : (cfg.fill A x).ip A = some x.ip := by
  rw [ip, fill, if_pos h, A.parse_showIPv4]

theorem mac_fill (h : trimSpace cfg.guestMAC = []) (g : UInt8) :
    (cfg.fill A (hostIdentity g)).mac A = some (hostIdentity g).mac := by
  rw [mac, fill, if_pos h, A.parse_showMAC _ rfl]

theorem Outside.ip_fill_eq (ho : cfg.Outside A) (hh : h ∈ hosts)
    (he : (cfg.fill A (hostIdentity g)).ip A = some (hostIdentity h).ip) : g = h := by
  by_cases hb : trimSpace cfg.guestIPv4 = []
  · rw [ip_fill hb] at he
    simpa [hostIdentity] using Option.some.inj he
  · rw [ip, fill, if_neg hb] at he
    exact absurd he (ho.1 hb h hh)

theorem Outside.mac_fill_eq (ho : cfg.Outside A) (hh : h ∈ hosts)
    (he : (cfg.fill A (hostIdentity g)).mac A = some (hostIdentity h).mac) : g = h := by
  by_cases hb : trimSpace cfg.guestMAC = []
  · rw [mac_fill hb] at he
    exact hostIdentity_mac_inj (Option.some.inj he)
  · rw [mac, fill, if_neg hb] at he
    exact absurd he (ho.2 hb h hh)

end NetworkConfig

namespace Manager

variable (A : Addressing)

def empty : Manager := ⟨∅, ∅⟩

def ensureNetworkLeaseLocked (m : Manager) (id : Text) (cfg : Option NetworkConfig) :
    Option NetworkConfig × Table Text Identity :=
  match cfg with
  | none => (none, m.networkLeases)
  | some cfg =>
    if cfg.enabled = false ∨ cfg.Complete then (some cfg, m.networkLeases)
    else
      match m.networkLeases.lookup (instanceID id) with
      | some lease => (some (cfg.fill A lease), m.networkLeases)
      | none =>
        let lease := hostIdentity (freeHost (1 :: lastBytes m.networkLeases))
        (some (cfg.fill A lease), m.networkLeases.insert (instanceID id) lease)

/-- The admission of a start: an id that is starting or running is refused. -/
def start (m : Manager) (id : Text) (cfg : Option NetworkConfig) : Manager :=
  if (m.vms.lookup (instanceID id)).isSome then m
  else
    let r := m.ensureNetworkLeaseLocked A id cfg
    ⟨m.vms.insert (instanceID id) ⟨cfg, r.1⟩, r.2⟩

/-- The end of a failed start, a stop or a VM that exits. -/
def exit (m : Manager) (id : Text) : Manager := ⟨m.vms.erase id, m.networkLeases.erase id⟩

def step (m : Manager) : ManagerCall → Manager
  | .start id cfg => m.start A id cfg
  | .exit id => m.exit id

/-- The calls for which the manager keeps its identities apart: addresses that are given are none that may be filled in,
and a lease that is needed finds a number. -/
def Fit (m : Manager) : ManagerCall → Prop
  | .start _ (some cfg) => cfg.enabled = true →
    cfg.Outside A ∧ (¬cfg.Complete → ∃ h ∈ hosts, h ∉ (1 : UInt8) :: lastBytes m.networkLeases)
  | _ => True

/-- No other VM with networking has the address. -/
def Alone {β : Type} (m : Manager) (id : Text) (address : NetworkConfig → Option β) (a : β) : Prop :=
  ∀ j v cfg, m.vms.lookup j = some v → j ≠ id → v.config = some cfg → cfg.enabled = true → address cfg ≠ some a

/-- What was filled in is in the range and no other VM's. -/
def Distinct (m : Manager) : Prop :=
  ∀ id v r, m.vms.lookup id = some v → v.requested = some r → r.enabled = true → ∃ cfg, v.config = some cfg ∧
    (trimSpace r.guestIPv4 = [] → ∃ h ∈ hosts, cfg.ip A = some (hostIdentity h).ip ∧
      m.Alone id (NetworkConfig.ip A) (hostIdentity h).ip) ∧
    (trimSpace r.guestMAC = [] → ∃ h ∈ hosts, cfg.mac A = some (hostIdentity h).mac ∧
      m.Alone id (NetworkConfig.mac A) (hostIdentity h).mac)

/-- A VM's configuration: nothing of it in the range, or filled in from the lease of its id. -/
structure Described (leases : Table Text Identity) (id : Text) (v : VmNetwork) : Prop where
  filled : ∀ r, v.requested = some r → r.enabled = true → v.config = some r ∧ r.Complete ∨
    ∃ g ∈ hosts, leases.lookup id = some (hostIdentity g) ∧ v.config = some (r.fill A (hostIdentity g))
  ip : ∀ cfg, v.config = some cfg → cfg.enabled = true → ∀ h ∈ hosts, cfg.ip A = some (hostIdentity h).ip →
    leases.lookup id = some (hostIdentity h)
  mac : ∀ cfg, v.config = some cfg → cfg.enabled = true → ∀ h ∈ hosts, cfg.mac A = some (hostIdentity h).mac →
    leases.lookup id = some (hostIdentity h)

structure Inv (m : Manager) : Prop where
  leased : ∀ id x, m.networkLeases.lookup id = some x → ∃ h ∈ hosts, x = hostIdentity h
  apart : ∀ i j x, m.networkLeases.lookup i = some x → m.networkLeases.lookup j = some x → i = j
  described : ∀ id v, m.vms.lookup id = some v → Described A m.networkLeases id v

variable {A} {m : Manager}

theorem Inv.distinct (h : m.Inv A) : m.Distinct A := by
  intro id v r hv hr hen
  rcases (h.described id v hv).filled r hr hen with ⟨hc, hcomplete⟩ | ⟨g, hg, hl, hc⟩
  · exact ⟨r, hc, fun hb => absurd hb hcomplete.1, fun hb => absurd hb hcomplete.2⟩
  · refine ⟨_, hc, fun hb => ⟨g, hg, NetworkConfig.ip_fill hb _, ?_⟩,
      fun hb => ⟨g, hg, NetworkConfig.mac_fill hb _, ?_⟩⟩
    · intro j w cfg hw hne hcfg hen' heq
      exact hne (h.apart _ _ _ ((h.described j w hw).ip cfg hcfg hen' g hg heq) hl)
    · intro j w cfg hw hne hcfg hen' heq
      exact hne (h.apart _ _ _ ((h.described j w hw).mac cfg hcfg hen' g hg heq) hl)

variable {leases : Table Text Identity}

/-- A configuration as it was given, outside the range if it is used at all. -/
theorem described_given (h : cfg.enabled = true → cfg.Outside A ∧ cfg.Complete) :
    Described A leases id ⟨some cfg, some cfg⟩ := by
  refine ⟨fun r hr hen => ?_, fun c hc hen g hg heq => ?_, fun c hc hen g hg heq => ?_⟩
  · cases hr
    exact .inl ⟨rfl, (h hen).2⟩
  · cases hc
    exact absurd heq ((h hen).1.1 (h hen).2.1 g hg)
  · cases hc
    exact absurd heq ((h hen).1.2 (h hen).2.2 g hg)

theorem described_filled (ho : cfg.Outside A) (hg : g ∈ hosts) (hl : leases.lookup id = some (hostIdentity g)) :
    Described A leases id ⟨some cfg, some (cfg.fill A (hostIdentity g))⟩ := by
  refine ⟨fun r hr _ => ?_, fun c hc _ h hh heq => ?_, fun c hc _ h hh heq => ?_⟩
  · cases hr
    exact .inr ⟨g, hg, hl, rfl⟩
  · cases hc
    exact ho.ip_fill_eq hh heq ▸ hl
  · cases hc
    exact ho.mac_fill_eq hh heq ▸ hl

theorem Described.congr {leases' : Table Text Identity} {v : VmNetwork} (h : Described A leases id v)
    (he : leases'.lookup id = leases.lookup id) : Described A leases' id v :=
  ⟨fun r hr hen => he ▸ h.filled r hr hen, fun c hc hen g hg heq => he ▸ h.ip c hc hen g hg heq,
    fun c hc hen g hg heq => he ▸ h.mac c hc hen g hg heq⟩

/-- The rule for a start: new leases that differ only at the id, and a configuration that fits them. -/
theorem Inv.started (h : m.Inv A) {v : VmNetwork}
    (hl : ∀ i x, leases.lookup i = some x → ∃ g ∈ hosts, x = hostIdentity g)
    (ha : ∀ i j x, leases.lookup i = some x → leases.lookup j = some x → i = j)
    (ho : ∀ i, i ≠ id → leases.lookup i = m.networkLeases.lookup i) (hv : Described A leases id v) :
    Inv A ⟨m.vms.insert id v, leases⟩ := by
  refine ⟨hl, ha, fun i w hw => ?_⟩
  rcases Table.lookup_insert_some hw with ⟨rfl, rfl⟩ | ⟨hne, hw⟩
  · exact hv
  · exact (h.described i w hw).congr (ho i hne)

theorem Inv.start (h : m.Inv A) {cfg : Option NetworkConfig} (hfit : m.Fit A (.start id cfg)) :
    (m.start A id cfg).Inv A := by
  unfold Manager.start
  split
  · exact h
  · cases cfg with
    | none =>
      exact h.started h.leased h.apart (fun _ _ => rfl) ⟨fun r hr => (by cases hr), fun c hc => (by cases hc),
        fun c hc => (by cases hc)⟩
    | some cfg =>
      simp only [ensureNetworkLeaseLocked]
      split
      · next hgiven =>
        refine h.started h.leased h.apart (fun _ _ => rfl) (described_given fun hen => ⟨(hfit hen).1, ?_⟩)
        exact hgiven.resolve_left (by simp [hen])
      · next hopen =>
        obtain ⟨hen, hcomplete⟩ := not_or.mp hopen
        obtain ⟨hout, hfree⟩ := hfit (by simpa using hen)
        split
        · next lease hlease =>
          obtain ⟨g, hg, rfl⟩ := h.leased _ _ hlease
          exact h.started h.leased h.apart (fun _ _ => rfl) (described_filled hout hg hlease)
        · obtain ⟨hg, hused⟩ := freeHost_spec (hfree hcomplete)
          have hnew : ∀ i, m.networkLeases.lookup i ≠ some (hostIdentity (freeHost (1 :: lastBytes m.networkLeases))) :=
            fun i hi => hused (mem_cons_of_mem _ (mem_lastBytes hi))
          refine h.started (fun i x hi => ?_) (fun i j x hi hj => ?_) (fun i hne => AList.lookup_insert_ne hne)
            (described_filled hout hg (AList.lookup_insert _))
          · rcases Table.lookup_insert_some hi with ⟨-, rfl⟩ | ⟨-, hi⟩
            · exact ⟨_, hg, rfl⟩
            · exact h.leased i x hi
          · rcases Table.lookup_insert_some hi with ⟨hi, hx⟩ | ⟨-, hi⟩ <;>
              rcases Table.lookup_insert_some hj with ⟨hj, hx'⟩ | ⟨-, hj⟩
            · exact hi.trans hj.symm
            · exact absurd (hx ▸ hj) (hnew j)
            · exact absurd (hx' ▸ hi) (hnew i)
            · exact h.apart i j x hi hj

theorem Inv.step (h : m.Inv A) {c : ManagerCall} (hfit : m.Fit A c) : (m.step A c).Inv A := by
  cases c with
  | start id cfg => exact h.start hfit
  | exit id =>
    refine ⟨fun i x hi => h.leased i x (Table.lookup_erase_some hi).2, fun i j x hi hj =>
      h.apart i j x (Table.lookup_erase_some hi).2 (Table.lookup_erase_some hj).2, fun i v hv => ?_⟩
    obtain ⟨hne, hv⟩ := Table.lookup_erase_some hv
    exact (h.described i v hv).congr (AList.lookup_erase_ne hne)

theorem empty_inv : empty.Inv A :=
  ⟨fun _ _ h => (by cases h), fun _ _ _ h => (by cases h), fun _ _ h => (by cases h)⟩

theorem inv_run {cs : List ManagerCall} (hcs : Throughout (step A) (Fit A) empty cs) :
    (runFrom (step A) empty cs).Inv A :=
  hcs.invariant (fun _ _ h hc => h.step hc) empty_inv

end Manager

end Manager

/-- Over fitting runs, the switch's identities are apart and what it chooses is in the range, and so is what the manager
fills in. -/
theorem identities_distinct (A : Addressing) :
    (∀ cs, Throughout (Switch.step A) (Switch.Fit A) .empty cs → (runFrom (Switch.step A) .empty cs).Distinct) ∧
    (∀ cs id cfg, Throughout (Switch.step A) (Switch.Fit A) .empty cs →
      (runFrom (Switch.step A) .empty cs).Fit A (.register id cfg) → (∀ c, cfg = some c → c.explicit = false) →
      ∃ h ∈ hosts, ((runFrom (Switch.step A) .empty cs).register A id cfg).1 = some (hostIdentity h)) ∧
    ∀ cs, Throughout (Manager.step A) (Manager.Fit A) .empty cs → (runFrom (Manager.step A) .empty cs).Distinct A :=
  ⟨fun _ h => (Switch.apart_run h).distinct, fun _ _ _ _ => Switch.register_free,
    fun _ h => (Manager.inv_run h).distinct⟩

section Instances

/-- A byte as `net.IP` prints it. -/
def decimalByte (x : UInt8) : Text :=
  if x.toNat < 10 then [Nat.digitChar x.toNat]
  else if x.toNat < 100 then [Nat.digitChar (x.toNat / 10), Nat.digitChar (x.toNat % 10)]
  else [Nat.digitChar (x.toNat / 100), Nat.digitChar (x.toNat / 10 % 10), Nat.digitChar (x.toNat % 10)]

/-- A byte as `net.HardwareAddr` prints it. -/
def hexByte (x : UInt8) : Text := [Nat.digitChar (x.toNat / 16), Nat.digitChar (x.toNat % 16)]

def digitValue (c : Char) : Nat := if c.isDigit then c.toNat - '0'.toNat else c.toNat - 'a'.toNat + 10

/-- The byte of which this is the text. -/
def parseByte (base : Nat) (text : UInt8 → Text) (field : Text) : Option UInt8 :=
  let x := UInt8.ofNat (field.foldl (fun n c => base * n + digitValue c) 0)
  if text x = field then some x else none

/-- The bytes between the separators. -/
def parseFields (sep : Char) (base : Nat) (text : UInt8 → Text) (t : Text) : Option Bytes :=
  (t.splitOn sep).mapM (parseByte base text)

def showFields (sep : Char) (text : UInt8 → Text) (bytes : Bytes) : Text := [sep].intercalate (bytes.map text)

theorem isSpace_digitChar : ∀ m < 16, isSpace (Nat.digitChar m) = false := by decide

theorem mem_decimalByte (x : UInt8) {c : Char} (hc : c ∈ decimalByte x) : ∃ m < 16, c = Nat.digitChar m := by
  have hx := x.toNat_lt
  unfold decimalByte at hc
  split_ifs at hc with h10 h100 <;> simp only [mem_cons, not_mem_nil, or_false] at hc
  · exact ⟨_, by omega, hc⟩
  · rcases hc with rfl | rfl <;> exact ⟨_, by omega, rfl⟩
  · rcases hc with rfl | rfl | rfl <;> exact ⟨_, by omega, rfl⟩

theorem mem_hexByte (x : UInt8) {c : Char} (hc : c ∈ hexByte x) : ∃ m < 16, c = Nat.digitChar m := by
  have hx := x.toNat_lt
  rcases mem_cons.mp hc with rfl | hc
  · exact ⟨_, by omega, rfl⟩
  · exact ⟨_, by omega, mem_singleton.mp hc⟩

theorem trimSpace_eq {t : Text} (h : ∀ c ∈ t, isSpace c = false) : trimSpace t = t := by
  have hdrop : ∀ t : Text, (∀ c ∈ t, isSpace c = false) → t.dropWhile isSpace = t := by
    intro t ht
    cases t with
    | nil => rfl
    | cons c t => rw [dropWhile_cons_of_neg (by simp [ht c mem_cons_self])]
  rw [trimSpace, hdrop t h, hdrop _ fun c hc => h c (mem_reverse.mp hc), reverse_reverse]

section

variable {sep : Char} {text : UInt8 → Text} {bytes : Bytes}
  (hdigit : ∀ x, ∀ c ∈ text x, ∃ m < 16, c = Nat.digitChar m)

include hdigit

theorem trimSpace_showFields (hsep : isSpace sep = false) :
    trimSpace (showFields sep text bytes) = showFields sep text bytes := by
  refine trimSpace_eq ?_
  have htext : ∀ x, ∀ c ∈ text x, isSpace c = false := by
    intro x c hc
    obtain ⟨m, hm, rfl⟩ := hdigit x c hc
    exact isSpace_digitChar m hm
  unfold showFields
  induction bytes with
  | nil => simp
  | cons x l ih =>
    by_cases hl : l = []
    · simpa [hl] using htext x
    · rw [map_cons, intercalate_cons_of_ne_nil (by simpa using hl)]
      simp only [mem_append, mem_singleton]
      rintro c ((hc | rfl) | hc)
      · exact htext x c hc
      · exact hsep
      · exact ih c hc

/-- What is printed can be read. -/
theorem parseFields_showFields {base : Nat} (hsep : ∀ m < 16, sep ≠ Nat.digitChar m)
    (hbyte : ∀ x, parseByte base text (text x) = some x) (hne : bytes ≠ []) :
    parseFields sep base text (showFields sep text bytes) = some bytes := by
  rw [parseFields, showFields, splitOn_intercalate]
  · induction bytes with
    | nil => exact absurd rfl hne
    | cons x l ih =>
      by_cases hl : l = []
      · simp [hl, hbyte]
      · simp [hbyte, ih hl]
  · intro l hl
    obtain ⟨x, -, rfl⟩ := mem_map.mp hl
    intro hmem
    obtain ⟨m, hm, heq⟩ := hdigit x sep hmem
    exact hsep m hm heq
  · simpa using hne

end

/-- A fact about all bytes, one after another. -/
theorem forall_byte {P : UInt8 → Prop} (h : ∀ n < 256, P (UInt8.ofNat n)) (x : UInt8) : P x := by
  simpa using h x.toNat x.toNat_lt

def plainAddressing : Addressing where
  parseIPv4 t := match parseFields '.' 10 decimalByte t with
    | some [a, b, c, d] => some ⟨a, b, c, d⟩
    | _ => none
  parseMAC t := (parseFields ':' 16 hexByte t).filter fun mac => mac.length = 6 || mac.length = 8 || mac.length = 20
  showIPv4 ip := showFields '.' decimalByte [ip.a, ip.b, ip.c, ip.d]
  showMAC mac := showFields ':' hexByte mac
  parse_showIPv4 ip := by
    rw [trimSpace_showFields (fun x _ => mem_decimalByte x) rfl,
      parseFields_showFields (fun x _ => mem_decimalByte x) (by decide) (forall_byte (by decide +kernel)) (by simp)]
  parse_showMAC mac hmac := by
    have hne : mac ≠ [] := by
      rintro rfl
      cases hmac
    rw [trimSpace_showFields (fun x _ => mem_hexByte x) rfl,
      parseFields_showFields (fun x _ => mem_hexByte x) (by decide) (forall_byte (by decide +kernel)) hne]
    simp [hmac]

/-- The address 192.168.0.9. -/
def outsideIPv4 : Text := ['1', '9', '2', '.', '1', '6', '8', '.', '0', '.', '9']

/-- The MAC address 02:42:0a:2a:00: and this byte. -/
def chosenMAC (h l : Char) : Text :=
  ['0', '2', ':', '4', '2', ':', '0', 'a', ':', '2', 'a', ':', '0', '0', ':', h, l]

/-- An explicit MAC address that is the one of host 2: the next VM without addresses gets it too. -/
theorem explicit_mac_chosen_again :
    ¬(runFrom (Switch.step plainAddressing) .empty
      [.register ['a'] (some ⟨true, outsideIPv4, chosenMAC '0' '2'⟩), .register ['b'] none]).Distinct := by
  intro h
  have hne := h ['a'] ['b'] ⟨⟨192, 168, 0, 9⟩, (hostIdentity 2).mac⟩ (hostIdentity 2) (.inl (by decide +kernel))
    (.inl (by decide +kernel)) (by decide)
  exact hne.2 rfl

/-- The first VM gives its addresses and is attached, the second gives none. -/
theorem two_vms_distinct :
    (runFrom (Switch.step plainAddressing) .empty
      [.register ['a'] (some ⟨true, outsideIPv4, chosenMAC '0' '9'⟩),
        .attach ['a'] ⟨⟨192, 168, 0, 9⟩, (hostIdentity 9).mac⟩, .register ['b'] none]).Distinct ∧
    (runFrom (Manager.step plainAddressing) .empty
      [.start ['a'] (some ⟨true, outsideIPv4, []⟩), .start ['b'] (some ⟨true, [], []⟩)]).Distinct plainAddressing := by
  have hdist := identities_distinct plainAddressing
  refine ⟨hdist.1 _ ⟨?_, ?_, ?_, trivial⟩, hdist.2.2 _ ⟨fun _ => ⟨⟨fun _ => ?_, ?_⟩, fun _ => ?_⟩,
    fun _ => ⟨⟨?_, ?_⟩, fun _ => ?_⟩, trivial⟩⟩
  · intro x hx h hmac
    have hid : NetworkConfig.identity plainAddressing ⟨true, outsideIPv4, chosenMAC '0' '9'⟩ =
        some ⟨⟨192, 168, 0, 9⟩, (hostIdentity 9).mac⟩ := by decide +kernel
    cases Option.some.inj (hid.symm.trans hx)
    exact hostIdentity_mac_inj hmac
  · change AList.lookup _ _ = _
    decide +kernel
  · exact ⟨2, by decide, by decide +kernel⟩
  · decide +kernel
  · exact fun h => absurd rfl h
  · exact ⟨2, by decide, by decide⟩
  · exact fun h => absurd rfl h
  · exact fun h => absurd rfl h
  · exact ⟨3, by decide, by decide +kernel⟩

end Instances

end CrumbleCracker.Vm.Network
