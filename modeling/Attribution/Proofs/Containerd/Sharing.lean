import Attribution.Proofs.Containerd.Connection
import Attribution.Proofs.Containerd.Registry
import Mathlib.Data.List.Nodup

namespace Attribution

def withSlash (path : List Char) : List Char :=
  if path.head? = some '/' then path else '/' :: path

theorem head?_withSlash (path : List Char) : (withSlash path).head? = some '/' := by
  unfold withSlash
  split
  next h => exact h
  next => rfl

/-- The path that a socket names: without a scheme at its front, and with a slash there. -/
def namedPath (socket : String) : String :=
  String.ofList <| withSlash <|
    if socketScheme.toList <+: socket.toList then socket.toList.drop socketScheme.length
    else socket.toList

theorem socketTarget_eq {socket : String} (h : socket ≠ "") :
    socketTarget socket = .ok (socketScheme ++ namedPath socket) := by
  have hpath : (Text.dropWord? socketScheme.toList socket.toList).getD socket.toList =
      if socketScheme.toList <+: socket.toList then socket.toList.drop socketScheme.length
      else socket.toList := by
    simp only [Text.dropWord?, List.isPrefixOf_iff_prefix, String.length_toList]
    split <;> rfl
  simp only [socketTarget, if_neg h, rootedPath, hpath, namedPath, withSlash]

theorem head?_namedPath (socket : String) : (namedPath socket).toList.head? = some '/' := by
  rw [namedPath, String.toList_ofList, head?_withSlash]

theorem namedPath_target (socket : String) :
    namedPath (socketScheme ++ namedPath socket) = namedPath socket := by
  have hdrop : (socketScheme ++ namedPath socket).toList.drop socketScheme.length =
      (namedPath socket).toList := by
    rw [String.toList_append, ← String.length_toList, List.drop_left]
  have hp : socketScheme.toList <+: (socketScheme ++ namedPath socket).toList := by
    rw [String.toList_append]
    exact List.prefix_append _ _
  rw [namedPath, if_pos hp, hdrop, withSlash, if_pos (head?_namedPath socket), String.ofList_toList]

/-- The target of a socket: it is under the scheme with a slash behind it, and it is its own target. -/
theorem socketTarget_normal {socket : String} (h : socket ≠ "") :
    ∃ target, socketTarget socket = .ok target ∧ "unix:///".toList <+: target.toList ∧
      socketTarget target = .ok target := by
  refine ⟨_, socketTarget_eq h, ?_, ?_⟩
  · obtain ⟨path, hp⟩ := List.head?_eq_some_iff.mp (head?_namedPath socket)
    exact ⟨path, by rw [String.toList_append, hp]; rfl⟩
  · rw [socketTarget_eq, namedPath_target]
    intro he
    have hs := (String.append_eq_empty_iff.mp he).1
    exact absurd hs (by decide)

/-- A use of the open channels. -/
inductive ChannelUse where
  | get (socket : String) (options : List (String × OptionValue))
  | closeAll
  deriving DecidableEq, Repr

namespace Channels

/-- What a channel is known by. -/
def keyOf (channel : Channel) : String × List (String × OptionValue) :=
  (channel.target, plainOptions channel.options)

/-- What the channel of a socket is known by. -/
def socketKey (socket : String) (options : List (String × OptionValue)) :
    String × List (String × OptionValue) :=
  (socketScheme ++ namedPath socket, plainOptions options)

theorem socketKey_inj {socket socket' : String} {options options' : List (String × OptionValue)} :
    socketKey socket options = socketKey socket' options' ↔
      namedPath socket = namedPath socket' ∧ plainOptions options = plainOptions options' := by
  simp [socketKey, ← String.toList_inj]

/-- The channels behind a use, and the channel that it brings. No channel is brought for a socket
without a name. -/
def perform (channels : Channels) : ChannelUse → Channels × Option Channel
  | .closeAll => (channels.closeAll, none)
  | .get socket options =>
    match socketTarget socket with
    | .error _ => (channels, none)
    | .ok target => ((channels.get target options).2.1, some (channels.get target options).1)

def run (channels : Channels) (uses : List ChannelUse) : Channels :=
  uses.foldl (fun cs use => (cs.perform use).1) channels

/-- The channel that a use opens. One that it finds open it does not open. -/
def opens (channels : Channels) (use : ChannelUse) : List Channel :=
  (channels.perform use).2.toList.filter fun channel => !channels.isOpen channel

/-- The channels that uses open, in order. -/
def openings (channels : Channels) : List ChannelUse → List Channel
  | [] => []
  | use :: uses => channels.opens use ++ openings (channels.perform use).1 uses

section

variable {channels : Channels} {channel first second : Channel} {socket socket' target : String}
  {options options' : List (String × OptionValue)} {uses between : List ChannelUse}
  {use : ChannelUse}

theorem get_cases (channels : Channels) (target : String)
    (options : List (String × OptionValue)) :
    keyOf (channels.get target options).1 = (target, plainOptions options) ∧
      (((channels.get target options).1 ∈ channels.opened ∧
          (channels.get target options).2.1 = channels) ∨
        ((channels.get target options).1.number = channels.created ∧
          (∀ c ∈ channels.opened, keyOf c ≠ (target, plainOptions options)) ∧
          (channels.get target options).2.1 =
            ⟨channels.created + 1, channels.opened ++ [(channels.get target options).1]⟩)) := by
  unfold get
  split
  next found hf =>
    have hkey := List.find?_some hf
    simp only [Bool.and_eq_true, beq_iff_eq] at hkey
    exact ⟨Prod.ext hkey.1 hkey.2, .inl ⟨List.mem_of_find?_eq_some hf, rfl⟩⟩
  next hn =>
    refine ⟨rfl, .inr ⟨rfl, fun c hc he => ?_, rfl⟩⟩
    have hkey := List.find?_eq_none.mp hn c hc
    obtain ⟨ht, ho⟩ := Prod.mk.inj he
    simp [ht, ho] at hkey

theorem perform_get (h : socket ≠ "") (channels : Channels)
    (options : List (String × OptionValue)) :
    channels.perform (.get socket options) =
      ((channels.get (socketScheme ++ namedPath socket) options).2.1,
        some (channels.get (socketScheme ++ namedPath socket) options).1) := by
  rw [perform, socketTarget_eq h]

/-- What a use does: it closes all channels, changes nothing as it brings an open channel or none, or
opens the channel that it brings. -/
inductive Effect (channels : Channels) : ChannelUse → Channels × Option Channel → Prop
  | closed : Effect channels .closeAll (channels.closeAll, none)
  | nameless (options : List (String × OptionValue)) :
    Effect channels (.get "" options) (channels, none)
  | found {socket : String} {options : List (String × OptionValue)} {channel : Channel} :
    socket ≠ "" → keyOf channel = socketKey socket options → channel ∈ channels.opened →
      Effect channels (.get socket options) (channels, some channel)
  | opened {socket : String} {options : List (String × OptionValue)} {channel : Channel} :
    socket ≠ "" → keyOf channel = socketKey socket options → channel.number = channels.created →
      (∀ c ∈ channels.opened, keyOf c ≠ socketKey socket options) →
      Effect channels (.get socket options)
        (⟨channels.created + 1, channels.opened ++ [channel]⟩, some channel)

theorem effect_perform (channels : Channels) (use : ChannelUse) :
    Effect channels use (channels.perform use) := by
  cases use with
  | closeAll => exact .closed
  | get socket options =>
    by_cases hn : socket = ""
    · subst hn
      exact .nameless options
    · obtain ⟨hk, ⟨hm, hs⟩ | ⟨hnum, hnone, ho⟩⟩ :=
        get_cases channels (socketScheme ++ namedPath socket) options
      · rw [perform_get hn, hs]
        exact .found hn hk hm
      · rw [perform_get hn, ho]
        exact .opened hn hk hnum hnone

theorem grows_perform (h : use ≠ .closeAll) : channels.Grows (channels.perform use).1 := by
  have he := effect_perform channels use
  generalize channels.perform use = behind at he ⊢
  cases he with
  | closed => exact absurd rfl h
  | nameless => exact .same
  | found => exact .same
  | opened _ _ hnum _ => exact .opened _ hnum

theorem reaches_run (channels : Channels) (uses : List ChannelUse) :
    channels.Reaches (decide (ChannelUse.closeAll ∈ uses)) (channels.run uses) := by
  induction uses generalizing channels with
  | nil => exact .refl _
  | cons use uses ih =>
    by_cases hc : use = .closeAll
    · subst hc
      rw [decide_eq_true List.mem_cons_self]
      exact .close (ih channels.closeAll)
    · have hm : ChannelUse.closeAll ∈ use :: uses ↔ ChannelUse.closeAll ∈ uses := by
        simp [Ne.symm hc]
      rw [decide_eq_decide.mpr hm]
      exact .get (grows_perform hc) (ih (channels.perform use).1)

theorem isOpen_of_mem (h : channel ∈ channels.opened) : channels.Open channel :=
  List.any_eq_true.mpr ⟨channel, h, beq_self_eq_true _⟩

theorem mem_opened_of_perform (h : (channels.perform use).2 = some channel) :
    channel ∈ (channels.perform use).1.opened := by
  have he := effect_perform channels use
  generalize channels.perform use = behind at he h ⊢
  cases he with
  | closed => cases h
  | nameless => cases h
  | found _ _ hm =>
    cases h
    exact hm
  | opened =>
    cases h
    exact List.mem_append_right _ (List.mem_singleton_self _)

theorem keyOf_of_perform (h : (channels.perform (.get socket options)).2 = some channel) :
    keyOf channel = socketKey socket options := by
  have he := effect_perform channels (.get socket options)
  generalize channels.perform (.get socket options) = behind at he h
  cases he with
  | nameless => cases h
  | found _ hk _ =>
    cases h
    exact hk
  | opened _ hk _ _ =>
    cases h
    exact hk

theorem nodup_map_concat {α β : Type} {f : α → β} {xs : List α} {x : α} (h : (xs.map f).Nodup)
    (hx : ∀ y ∈ xs, f y ≠ f x) : ((xs ++ [x]).map f).Nodup := by
  rw [List.map_append, List.map_singleton, List.nodup_append_comm, List.singleton_append,
    List.nodup_cons]
  refine ⟨fun hm => ?_, h⟩
  obtain ⟨y, hy, he⟩ := List.mem_map.mp hm
  exact hx y hy he

/-- No two open channels have a number or a key in common, and no number is still to be given out. -/
structure Distinct (channels : Channels) : Prop where
  numbered : channels.Numbered
  numbers : (channels.opened.map (·.number)).Nodup
  keys : (channels.opened.map keyOf).Nodup

theorem distinct_closeAll (channels : Channels) : channels.closeAll.Distinct :=
  ⟨.closeAll channels, List.nodup_nil, List.nodup_nil⟩

theorem Distinct.perform (h : channels.Distinct) (use : ChannelUse) :
    (channels.perform use).1.Distinct := by
  have hn : (channels.perform use).1.Numbered :=
    h.numbered.reaches (reaches_run channels [use])
  have he := effect_perform channels use
  generalize channels.perform use = behind at he hn ⊢
  cases he with
  | closed => exact distinct_closeAll channels
  | nameless => exact h
  | found => exact h
  | opened _ hk hnum hnone =>
    refine ⟨hn, nodup_map_concat h.numbers fun c hc => ?_,
      nodup_map_concat h.keys fun c hc => hk ▸ hnone c hc⟩
    have hlt := h.numbered c hc
    omega

theorem Distinct.run (h : channels.Distinct) (uses : List ChannelUse) :
    (channels.run uses).Distinct := by
  induction uses generalizing channels with
  | nil => exact h
  | cons use uses ih => exact ih (h.perform use)

theorem mem_opened_run (h : channel ∈ channels.opened) (hno : ChannelUse.closeAll ∉ uses) :
    channel ∈ (channels.run uses).opened := by
  induction uses generalizing channels with
  | nil => exact h
  | cons use uses ih =>
    obtain ⟨hne, hno⟩ := not_or.mp (mt List.mem_cons.mpr hno)
    exact ih ((grows_perform (Ne.symm hne)).mem h) hno

/-- A channel that is got again without a closing in between is the one that is open. -/
theorem Distinct.eq_of_key (hd : channels.Distinct) (hf : first ∈ channels.opened)
    (hs : (channels.perform (.get socket options)).2 = some second)
    (hk : keyOf first = socketKey socket options) : first = second := by
  have he := effect_perform channels (.get socket options)
  generalize channels.perform (.get socket options) = behind at he hs
  cases he with
  | nameless => cases hs
  | found _ hk' hm =>
    cases hs
    exact List.inj_on_of_nodup_map hd.keys hf hm (hk.trans hk'.symm)
  | opened _ _ _ hnone => exact absurd hk (hnone first hf)

/-- Two uses bring the same channel if they have the same key and nothing is closed between them, and
only then. -/
theorem number_eq_iff (hd : channels.Distinct)
    (hf : (channels.perform (.get socket options)).2 = some first)
    (hs : (((channels.perform (.get socket options)).1.run between).perform
      (.get socket' options')).2 = some second) :
    first.number = second.number ↔
      ChannelUse.closeAll ∉ between ∧ socketKey socket options = socketKey socket' options' := by
  have hd' := (hd.perform (.get socket options)).run between
  have hmem := mem_opened_of_perform hf
  have hkey := keyOf_of_perform hf
  constructor
  · intro hnum
    have hlater := mem_opened_of_perform hs
    have hg : ((channels.perform (.get socket options)).1.run between).Grows
        (((channels.perform (.get socket options)).1.run between).perform
          (.get socket' options')).1 := grows_perform (by simp)
    by_cases hc : ChannelUse.closeAll ∈ between
    · -- The first channel was closed, and its number is not that of an open one again.
      have hshut := ((isOpen_of_mem hmem).shut (hd.perform _).numbered (reaches_run _ between)
        (decide_eq_true hc)).grows hg
      have hopen := isOpen_of_mem hlater
      rw [Open, isOpen, ← hnum] at hopen
      cases hopen.symm.trans hshut.closed
    · have hsame : first = second := List.inj_on_of_nodup_map (hd'.perform _).numbers
        (hg.mem (mem_opened_run hmem hc)) hlater hnum
      exact ⟨hc, hkey.symm.trans (hsame ▸ keyOf_of_perform hs)⟩
  · rintro ⟨hc, hk⟩
    exact congrArg Channel.number (hd'.eq_of_key (mem_opened_run hmem hc) hs (hkey.trans hk))

/-- Without a closing what is open is what was open before and what was opened. -/
theorem opened_run (hn : channels.Numbered) (hno : ChannelUse.closeAll ∉ uses) :
    (channels.run uses).opened = channels.opened ++ channels.openings uses := by
  induction uses generalizing channels with
  | nil => exact (List.append_nil _).symm
  | cons use uses ih =>
    obtain ⟨hne, hno⟩ := not_or.mp (mt List.mem_cons.mpr hno)
    have hnext := hn.grows (grows_perform (Ne.symm hne))
    have hstep : (channels.perform use).1.opened = channels.opened ++ channels.opens use := by
      have he := effect_perform channels use
      unfold opens
      generalize channels.perform use = behind at he ⊢
      cases he with
      | closed => exact absurd rfl hne
      | nameless => simp
      | found _ _ hm =>
        have ho : channels.isOpen _ = true := isOpen_of_mem hm
        simp [ho]
      | @opened _ _ channel _ _ hnum _ =>
        have ho : channels.isOpen channel = false := by
          rw [Bool.eq_false_iff]
          intro ho
          have hlt := Open.given ho hn
          omega
        simp [ho]
    rw [openings, ← List.append_assoc, ← hstep]
    exact ih hnext hno

theorem mem_keys_perform (h : use ≠ .closeAll) (key : String × List (String × OptionValue)) :
    key ∈ (channels.perform use).1.opened.map keyOf ↔
      key ∈ channels.opened.map keyOf ∨ ∃ socket options, use = .get socket options ∧
        socket ≠ "" ∧ key = socketKey socket options := by
  have he := effect_perform channels use
  generalize channels.perform use = behind at he ⊢
  cases he with
  | closed => exact absurd rfl h
  | nameless => simp
  | found hn hk hm =>
    refine ⟨.inl, ?_⟩
    rintro (hkey | ⟨_, _, hu, _, rfl⟩)
    · exact hkey
    · cases hu
      exact List.mem_map.mpr ⟨_, hm, hk⟩
  | opened hn hk =>
    simp only [List.map_append, List.map_singleton, List.mem_append, List.mem_singleton, hk,
      ChannelUse.get.injEq]
    exact or_congr_right ⟨fun he => ⟨_, _, ⟨rfl, rfl⟩, hn, he⟩, fun ⟨_, _, ⟨hs, ho⟩, _, he⟩ => by
      rw [hs, ho, he]⟩

theorem mem_keys_run (hno : ChannelUse.closeAll ∉ uses)
    (key : String × List (String × OptionValue)) :
    key ∈ (channels.run uses).opened.map keyOf ↔
      key ∈ channels.opened.map keyOf ∨ ∃ socket options, ChannelUse.get socket options ∈ uses ∧
        socket ≠ "" ∧ key = socketKey socket options := by
  induction uses generalizing channels with
  | nil => simp [run]
  | cons use uses ih =>
    obtain ⟨hne, hno⟩ := not_or.mp (mt List.mem_cons.mpr hno)
    have hrest := @ih (channels.perform use).1 hno
    rw [mem_keys_perform (Ne.symm hne), or_assoc] at hrest
    refine hrest.trans (or_congr_right ?_)
    constructor
    · rintro (⟨socket, options, rfl, hk⟩ | ⟨socket, options, hm, hk⟩)
      · exact ⟨socket, options, List.mem_cons_self, hk⟩
      · exact ⟨socket, options, List.mem_cons_of_mem use hm, hk⟩
    · rintro ⟨socket, options, hm, hk⟩
      rcases List.mem_cons.mp hm with rfl | hm
      · exact .inl ⟨socket, options, rfl, hk⟩
      · exact .inr ⟨socket, options, hm, hk⟩

end

/-- How sockets share channels, from these channels on. -/
structure Shared (channels : Channels) : Prop where
  /-- A socket with a name is brought a channel, which is open then. -/
  opened : ∀ socket options, socket ≠ "" → ∃ channel,
    (channels.perform (.get socket options)).2 = some channel ∧
      (channels.perform (.get socket options)).1.isOpen channel = true
  /-- Two sockets are brought the same channel exactly if nothing is closed between them, they name the
  same path and they have the same options. -/
  same : ∀ socket options between socket' options' first second,
    (channels.perform (.get socket options)).2 = some first →
    (((channels.perform (.get socket options)).1.run between).perform
      (.get socket' options')).2 = some second →
    (first.number = second.number ↔ ChannelUse.closeAll ∉ between ∧
      namedPath socket = namedPath socket' ∧ plainOptions options = plainOptions options')
  /-- After a closing the open channels are those that have been opened since, one for each path and
  options that a channel was asked for under. -/
  since : ∀ uses, ChannelUse.closeAll ∉ uses →
    (channels.closeAll.run uses).opened = channels.closeAll.openings uses ∧
    ((channels.closeAll.run uses).opened.map keyOf).Nodup ∧
    ∀ key, key ∈ (channels.closeAll.run uses).opened.map keyOf ↔ ∃ socket options,
      ChannelUse.get socket options ∈ uses ∧ socket ≠ "" ∧ key = socketKey socket options

/-- However channels are got and closed, one is open for each path and options. At first none is open,
as after a closing. -/
theorem shared_by_path (uses : List ChannelUse) (socket : String) :
    Shared (run {} uses) ∧ (socket ≠ "" → ∃ target, socketTarget socket = .ok target ∧
      "unix:///".toList <+: target.toList ∧ socketTarget target = .ok target) := by
  have hd : (run {} uses).Distinct := (distinct_closeAll {}).run uses
  refine ⟨⟨?_, ?_, ?_⟩, socketTarget_normal⟩
  · intro socket options hn
    rw [perform_get hn]
    exact ⟨_, rfl, isOpen_get _ _ _⟩
  · intro socket options between socket' options' first second hf hs
    rw [number_eq_iff hd hf hs, socketKey_inj]
  · intro since hno
    have hclosed := distinct_closeAll (run {} uses)
    refine ⟨opened_run hclosed.numbered hno, (hclosed.run since).keys, fun key => ?_⟩
    rw [mem_keys_run hno]
    exact or_iff_right List.not_mem_nil

example : (run {} [.get "run/x" [], .get "unix:///run/x" [], .get "/run/y" [], .closeAll,
    .get "unix://run/y" []]).opened.map (·.number) = [2] := by decide +kernel

end Channels
end Attribution
