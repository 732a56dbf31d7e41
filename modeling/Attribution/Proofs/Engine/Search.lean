import Attribution.Engine.Discovery
import Attribution.Proofs.Containerd.Connection
import Attribution.Proofs.Files.Access

namespace Attribution

namespace SocketName

/-- The name can be looked at under a root, and a socket that is there has a text for its path. -/
def Open (fs : FileSystem) (root : String) : SocketName → Prop
  | .text name => name = "" ∨ IsPath (root ++ name)
  | .unpaired points _ =>
    (∀ p ∈ points, 0xd800 ≤ p → p < 0xe000 → 0xdc80 ≤ p ∧ p ≤ 0xdcff) ∧ 0 ∉ points ∧ IsPath root ∧
      fs.hasSocketAt ((root.toList.map Char.toNat ++ points).flatMap Utf8.pointBytes) = false

/-- The path of the socket that a name leads to. -/
def socket? (fs : FileSystem) (root : String) : SocketName → Option String
  | .text name =>
    if name ≠ "" ∧ fs.hasSocket (root ++ name) = true then some (root ++ name) else none
  | .unpaired _ _ => none

end SocketName

/-- The sockets that names lead to, in order, each as often as it is named. -/
def socketsAmong (fs : FileSystem) (root : String) (names : List SocketName) : List String :=
  names.filterMap (SocketName.socket? fs root)

section

variable {fs : FileSystem} {root : String} {name : SocketName}

theorem ne_empty_of_socket? {path : String} (h : name.socket? fs root = some path) : path ≠ "" := by
  cases name with
  | text name =>
    simp only [SocketName.socket?, Option.ite_none_right_eq_some, Option.some.injEq] at h
    obtain ⟨⟨hn, _⟩, rfl⟩ := h
    exact fun he => hn (String.append_eq_empty_iff.mp he).2
  | unpaired points stray => cases h

/-- Names of files can hold those surrogates that stand for bytes. -/
theorem nameBytes_eq_ok_iff {points : List Nat} {bytes : List UInt8} :
    Utf8.nameBytes points = .ok bytes ↔
      (∀ p ∈ points, 0xd800 ≤ p → p < 0xe000 → 0xdc80 ≤ p ∧ p ≤ 0xdcff) ∧
        points.flatMap Utf8.pointBytes = bytes := by
  have hrefused : (points.any fun p => Utf8.isSurrogate p && !Utf8.isEscape p) = false ↔
      ∀ p ∈ points, 0xd800 ≤ p → p < 0xe000 → 0xdc80 ≤ p ∧ p ≤ 0xdcff := by
    rw [List.any_eq_false]
    refine forall_congr' fun p => forall_congr' fun _ => ?_
    simp only [Utf8.isSurrogate, Utf8.isEscape, Bool.and_eq_true, Bool.not_eq_true',
      decide_eq_true_eq, Bool.and_eq_false_iff, decide_eq_false_iff_not]
    omega
  rw [← hrefused, Utf8.nameBytes]
  split
  next hr => simp [hr]
  next hr => simp [hr]

theorem mem_points_of_text {p : Nat} (text : String) (h : p ∈ text.toList.map Char.toNat) :
    ¬(0xd800 ≤ p ∧ p < 0xe000) := by
  obtain ⟨c, _, rfl⟩ := List.mem_map.mp h
  have hv := c.valid
  simp only [UInt32.isValidChar, Nat.isValidChar] at hv
  simp only [Char.toNat]
  omega

theorem zero_mem_points_iff {text : String} : 0 ∈ text.toList.map Char.toNat ↔ ¬IsPath text := by
  rw [IsPath, Decidable.not_not, List.mem_map]
  constructor
  · rintro ⟨c, hm, hc⟩
    obtain rfl : c = '\x00' := Char.toNat_inj.mp hc
    exact hm
  · exact fun hm => ⟨_, hm, rfl⟩

theorem nameLeadsToSocket_of_nameBytes {points : List Nat} {bytes : List UInt8}
    {stray : points.any Utf8.isSurrogate = true} (hb : Utf8.nameBytes points = .ok bytes)
    (hz : 0 ∉ points) :
    fs.nameLeadsToSocket (.unpaired points stray) = .ok (fs.hasSocketAt bytes) := by
  simp only [FileSystem.nameLeadsToSocket, hb]
  rw [if_neg (by simpa using hz)]

theorem runtimeSocket?_of_open (h : name.Open fs root) :
    runtimeSocket? fs root name = .ok ((name.socket? fs root).map .text) := by
  cases name with
  | text name =>
    by_cases hn : name = ""
    · simp [runtimeSocket?, SocketName.socket?, hn]
    · have hsocket : fs.leadsToSocket (root ++ name) = .ok (fs.hasSocket (root ++ name)) :=
        FileSystem.leadsToSocket_of_isPath (h.resolve_left hn)
      rw [runtimeSocket?, if_neg (by simpa using hn), SocketName.under, FileSystem.nameLeadsToSocket,
        hsocket, SocketName.socket?]
      cases hb : fs.hasSocket (root ++ name) with
      | false => simp [Except.map]
      | true => simp [hn, Except.map]
  | unpaired points stray =>
    obtain ⟨hescapes, hzero, hroot, habsent⟩ := h
    have hbytes : Utf8.nameBytes (root.toList.map Char.toNat ++ points) =
        .ok ((root.toList.map Char.toNat ++ points).flatMap Utf8.pointBytes) := by
      refine nameBytes_eq_ok_iff.mpr ⟨fun p hp hl hu => ?_, rfl⟩
      rcases List.mem_append.mp hp with hp | hp
      · exact (mem_points_of_text root hp ⟨hl, hu⟩).elim
      · exact hescapes p hp hl hu
    have hnull : 0 ∉ root.toList.map Char.toNat ++ points := by
      rw [List.mem_append, zero_mem_points_iff]
      exact not_or.mpr ⟨not_not_intro hroot, hzero⟩
    rw [runtimeSocket?, if_neg (by simp), SocketName.under, nameLeadsToSocket_of_nameBytes hbytes hnull,
      habsent]
    rfl

/-- A name that cannot be looked at is a fault, and so is a socket whose path is no text. -/
theorem runtimeSocket?_of_not_open (h : ¬name.Open fs root) :
    (∃ fault, runtimeSocket? fs root name = .error fault) ∨
      ∃ points stray, runtimeSocket? fs root name = .ok (some (.unpaired points stray)) := by
  cases name with
  | text name =>
    obtain ⟨hn, hp⟩ := not_or.mp h
    have hsocket : fs.leadsToSocket (root ++ name) = .error .nullInPath :=
      FileSystem.leadsToSocket_of_not_isPath hp
    simp [runtimeSocket?, hn, SocketName.under, FileSystem.nameLeadsToSocket, hsocket, Except.map]
  | unpaired points stray =>
    rw [runtimeSocket?, if_neg (by simp), SocketName.under]
    cases hb : Utf8.nameBytes (root.toList.map Char.toNat ++ points) with
    | error e => exact .inl ⟨.notEncodable e, by simp only [FileSystem.nameLeadsToSocket, hb]; rfl⟩
    | ok bytes =>
      obtain ⟨hescapes, rfl⟩ := nameBytes_eq_ok_iff.mp hb
      by_cases hz : 0 ∈ root.toList.map Char.toNat ++ points
      · refine .inl ⟨.nullInPath, ?_⟩
        simp only [FileSystem.nameLeadsToSocket, hb]
        rw [if_pos (by simpa using hz)]
        rfl
      · right
        have hnull := hz
        rw [List.mem_append, zero_mem_points_iff, not_or, Decidable.not_not] at hnull
        have hthere : fs.hasSocketAt
            ((root.toList.map Char.toNat ++ points).flatMap Utf8.pointBytes) = true := by
          refine Bool.not_eq_false _ |>.mp fun habsent => h ⟨?_, hnull.2, hnull.1, habsent⟩
          exact fun p hp => hescapes p (List.mem_append_right _ hp)
        rw [nameLeadsToSocket_of_nameBytes hb hz, hthere]
        exact ⟨_, _, rfl⟩

end

section

variable {fs : FileSystem} {service : RuntimeService} {settings : Settings} {network : Network}
  {name : SocketName}

/-- What a name does to the search, whichever come behind it. -/
inductive Trial (fs : FileSystem) (service : RuntimeService) (settings : Settings)
    (network : Network) (name : SocketName) : Prop where
  /-- No socket is there. -/
  | passed (opens : name.Open fs settings.hostRoot) (absent : name.socket? fs settings.hostRoot = none)
      (goes : ∀ later, discover fs service settings network (name :: later) =
        discover fs service settings network later)
  /-- The name ends the search before anything is opened for it. -/
  | barred {fault : Fault} (closed : ¬name.Open fs settings.hostRoot)
      (stops : ∀ later, discover fs service settings network (name :: later) =
        ⟨.error fault, network, []⟩)
  /-- The socket does not answer. -/
  | silent {path : String} {client : Client} (opens : name.Open fs settings.hostRoot)
      (there : name.socket? fs settings.hostRoot = some path)
      (made : (settings.reach service network path).client = .ok client)
      (broken : client.isOk = false)
      (goes : ∀ later, discover fs service settings network (name :: later) =
        (discover fs service settings (settings.reach service network path).network later).after
          (settings.reach service network path).log)
  /-- The socket answers, or no client can be made for it. -/
  | settled {path : String} (log : List LogLine) (opens : name.Open fs settings.hostRoot)
      (there : name.socket? fs settings.hostRoot = some path)
      (bound : ∀ client, (settings.reach service network path).client = .ok client →
        client.isOk = true)
      (stops : ∀ later, discover fs service settings network (name :: later) =
        ⟨(settings.reach service network path).client.map some,
          (settings.reach service network path).network, log⟩)

theorem trial (fs : FileSystem) (service : RuntimeService) (settings : Settings)
    (network : Network) (name : SocketName) : Trial fs service settings network name := by
  by_cases hopen : name.Open fs settings.hostRoot
  · have hfound := runtimeSocket?_of_open hopen
    cases hs : name.socket? fs settings.hostRoot with
    | none =>
      rw [hs, Option.map_none] at hfound
      exact .passed hopen hs fun later => by rw [discover, hfound]
    | some path =>
      rw [hs, Option.map_some] at hfound
      cases hc : (settings.reach service network path).client with
      | error fault =>
        refine .settled (settings.reach service network path).log hopen hs ?_ fun later => ?_
        · rw [hc]
          exact nofun
        · simp only [discover, hfound, SocketName.connect, hc]
          rfl
      | ok client =>
        cases ho : client.isOk with
        | true =>
          refine .settled ((settings.reach service network path).log ++
            [Log.info "containerd" ("containerd: using runtime socket " ++ client.socketPath)])
            hopen hs ?_ fun later => ?_
          · rw [hc]
            exact fun client he => Except.ok.inj he ▸ ho
          · simp only [discover, hfound, SocketName.connect, hc, ho, if_true]
            rfl
        | false =>
          refine .silent hopen hs hc ho fun later => ?_
          simp only [discover, hfound, SocketName.connect, hc, ho, Bool.false_eq_true, if_false]
  · rcases runtimeSocket?_of_not_open hopen with ⟨fault, hf⟩ | ⟨points, stray, hf⟩
    · exact .barred hopen fun later => by rw [discover, hf]
    · exact .barred hopen fun later => by rw [discover, hf]; rfl

/-- Names are searched behind others if those come to nothing, and are not looked at else. -/
theorem discover_append (fs : FileSystem) (service : RuntimeService) (settings : Settings)
    (network : Network) (names later : List SocketName) :
    let d := discover fs service settings network names
    (d.client = .ok none → discover fs service settings network (names ++ later) =
      (discover fs service settings d.network later).after d.log) ∧
    (d.client ≠ .ok none → discover fs service settings network (names ++ later) = d) := by
  induction names generalizing network with
  | nil => exact ⟨fun _ => rfl, fun hn => (hn rfl).elim⟩
  | cons name names ih =>
    rw [List.cons_append]
    cases trial fs service settings network name with
    | passed _ _ goes =>
      rw [goes, goes]
      exact ih network
    | barred _ stops =>
      rw [stops, stops]
      exact ⟨nofun, fun _ => rfl⟩
    | @silent path _ _ _ _ _ goes =>
      rw [goes, goes]
      obtain ⟨hgoes, hstops⟩ := ih (settings.reach service network path).network
      refine ⟨fun hd => ?_, fun hd => ?_⟩
      · rw [hgoes hd]
        simp only [Discovery.after, List.append_assoc]
      · rw [hstops hd]
    | @settled path log _ _ _ stops =>
      rw [stops, stops]
      refine ⟨fun hd => ?_, fun _ => rfl⟩
      cases hc : (settings.reach service network path).client <;> simp [hc, Except.map] at hd

theorem discover_of_no_socket {names : List SocketName}
    (hopen : ∀ name ∈ names, name.Open fs settings.hostRoot)
    (hn : socketsAmong fs settings.hostRoot names = []) (service : RuntimeService)
    (network : Network) :
    discover fs service settings network names = ⟨.ok none, network, []⟩ := by
  induction names with
  | nil => rfl
  | cons name names ih =>
    obtain ⟨hfirst, hlater⟩ := List.forall_mem_cons.mp hopen
    cases trial fs service settings network name with
    | passed _ absent goes =>
      rw [goes]
      exact ih hlater ((List.filterMap_cons_none absent).symm.trans hn)
    | barred closed => exact (closed hfirst).elim
    | silent _ there =>
      rw [socketsAmong, List.filterMap_cons_some there] at hn
      cases hn
    | settled log _ there =>
      rw [socketsAmong, List.filterMap_cons_some there] at hn
      cases hn

end
end Attribution
