import Attribution.Containerd.Channel

namespace Attribution

namespace Channels

variable {channels after : Channels} {channel : Channel}

/-- What getting a channel does to the others: nothing, or one is opened under the next number. -/
inductive Grows (channels : Channels) : Channels → Prop where
  | same : Grows channels channels
  | opened (channel : Channel) (h : channel.number = channels.created) :
      Grows channels ⟨channels.created + 1, channels.opened ++ [channel]⟩

theorem grows_get (channels : Channels) (target : String) (options : List (String × OptionValue)) :
    channels.Grows (channels.get target options).2.1 := by
  unfold get
  split
  next => exact .same
  next => exact .opened _ rfl

theorem Grows.mem (hg : channels.Grows after) (h : channel ∈ channels.opened) :
    channel ∈ after.opened := by
  cases hg with
  | same => exact h
  | opened => exact List.mem_append_left _ h

def Open (channels : Channels) (channel : Channel) : Prop := channels.isOpen channel = true

theorem Open.grows (h : channels.Open channel) (hg : channels.Grows after) : after.Open channel := by
  cases hg with
  | same => exact h
  | opened c hc =>
    simp only [Open, isOpen, List.any_append, Bool.or_eq_true] at h ⊢
    exact .inl h

/-- No channel is open under a number that is still to be given out. -/
def Numbered (channels : Channels) : Prop := ∀ c ∈ channels.opened, c.number < channels.created

theorem Numbered.grows (h : channels.Numbered) (hg : channels.Grows after) : after.Numbered := by
  cases hg with
  | same => exact h
  | opened channel hc =>
    intro c hm
    dsimp only at hm ⊢
    rcases List.mem_append.mp hm with hm | hm
    · have hlt := h c hm
      omega
    · obtain rfl := List.mem_singleton.mp hm
      omega

theorem Numbered.closeAll (channels : Channels) : channels.closeAll.Numbered := by
  intro c hm
  cases hm

theorem Open.given (ho : channels.Open channel) (h : channels.Numbered) :
    channel.number < channels.created := by
  obtain ⟨c, hm, hc⟩ := List.any_eq_true.mp ho
  have hlt := h c hm
  rwa [eq_of_beq hc] at hlt

/-- The channel was open once and has been closed. -/
structure Shut (channels : Channels) (channel : Channel) : Prop where
  given : channel.number < channels.created
  closed : channels.isOpen channel = false

/-- The number of a closed channel is not given out again, so it stays closed. -/
theorem Shut.grows (h : channels.Shut channel) (hg : channels.Grows after) : after.Shut channel := by
  obtain ⟨hlt, hclosed⟩ := h
  cases hg with
  | same => exact ⟨hlt, hclosed⟩
  | opened c hc =>
    have hne : c.number ≠ channel.number := by omega
    refine ⟨Nat.lt_succ_of_lt hlt, ?_⟩
    simp only [isOpen, List.any_append, Bool.or_eq_false_iff] at hclosed ⊢
    exact ⟨hclosed, by simp [hne]⟩

theorem shut_closeAll (h : channel.number < channels.created) : channels.closeAll.Shut channel :=
  ⟨h, rfl⟩

/-- How channels come from others by getting and closing; the flag says whether there was a closing. -/
inductive Reaches : Channels → Bool → Channels → Prop where
  | refl (channels : Channels) : Reaches channels false channels
  | get {channels next last : Channels} {closed : Bool} :
      channels.Grows next → Reaches next closed last → Reaches channels closed last
  | close {channels last : Channels} {closed : Bool} :
      Reaches channels.closeAll closed last → Reaches channels true last

variable {closed : Bool}

theorem Open.reaches (h : channels.Open channel) (hr : channels.Reaches closed after)
    (hc : closed = false) : after.Open channel := by
  induction hr with
  | refl => exact h
  | get hg _ ih => exact ih (h.grows hg) hc
  | close => cases hc

theorem Numbered.reaches (h : channels.Numbered) (hr : channels.Reaches closed after) :
    after.Numbered := by
  induction hr with
  | refl => exact h
  | get hg _ ih => exact ih (h.grows hg)
  | close _ ih => exact ih (.closeAll _)

theorem Shut.reaches (h : channels.Shut channel) (hr : channels.Reaches closed after) :
    after.Shut channel := by
  induction hr with
  | refl => exact h
  | get hg _ ih => exact ih (h.grows hg)
  | close _ ih => exact ih (shut_closeAll h.given)

theorem Open.shut (h : channels.Open channel) (hn : channels.Numbered)
    (hr : channels.Reaches closed after) (hc : closed = true) : after.Shut channel := by
  -- The channel is open until the first closing, and shut from there on.
  induction hr with
  | refl => cases hc
  | get hg _ ih => exact ih (h.grows hg) (hn.grows hg) hc
  | close hlater _ => exact (shut_closeAll (h.given hn)).reaches hlater

end Channels
end Attribution
