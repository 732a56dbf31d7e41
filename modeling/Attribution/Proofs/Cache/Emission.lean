import Attribution.Proofs.Cache.Announcement

namespace Attribution

namespace Event

/-- Whether the numbers of an announcement can be written. They are the same under every hostname. -/
def announceable (record : ContainerRecord) (thread : Option Thread) : Bool :=
  (build "" record thread).numbers.all Text.writable

end Event

namespace Announcement

theorem tell_emitting (thread : Option Thread) (a : Announcement) (hostname : String) :
    (a.tell thread (.emitting hostname)).1 = a ∧
      (a.tell thread (.emitting hostname)).2.events =
        if Event.announceable a.record thread then [Event.build hostname a.record thread] else [] := by
  by_cases hw : Event.announceable a.record thread = true
  · have hreact : (Listener.emitting hostname).react a.record thread =
        .send (Event.build hostname a.record thread) .done := if_pos hw
    rw [tell, hreact, if_pos hw]
    exact ⟨rfl, rfl⟩
  · have hreact : (Listener.emitting hostname).react a.record thread =
        .fail Fault.unwritable.message := if_neg hw
    rw [tell, hreact, if_neg hw]
    exact ⟨rfl, rfl⟩

/-- Each of several senders sends the same event under its own hostname, or none sends any. -/
theorem events_tellAll_emitting (thread : Option Thread) (a : Announcement)
    (hostnames : List String) :
    (tellAll thread a (hostnames.map Listener.emitting)).2.flatMap (·.events) =
      if Event.announceable a.record thread then
        hostnames.map (Event.build · a.record thread)
      else [] := by
  induction hostnames with
  | nil => simp [tellAll]
  | cons hostname hostnames ih =>
    obtain ⟨ha, he⟩ := tell_emitting thread a hostname
    simp only [List.map_cons, tellAll, ha, List.flatMap_cons, he, ih]
    split <;> rfl

end Announcement

theorem Cache.events_announce_emitting {cache : Cache} {hostnames : List String}
    (h : cache.listeners = hostnames.map Listener.emitting) (record : ContainerRecord) (held : Bool)
    (thread : Option Thread) :
    (cache.announce record held thread).2.flatMap (·.events) =
      if Event.announceable record thread then hostnames.map (Event.build · record thread) else [] := by
  have ht : (cache.announce record held thread).2 =
      (Announcement.tellAll thread ⟨cache, record, held⟩ (hostnames.map Listener.emitting)).2 :=
    congrArg (fun ls => (Announcement.tellAll thread ⟨cache, record, held⟩ ls).2) h
  rw [ht, Announcement.events_tellAll_emitting]

end Attribution
