import Doip.Proofs.Link.Output
import Doip.Proofs.Session.Settlement

/-! # What a session writes is what was asked for

Each occasion to write comes from a call of a caller, with the target that was read when the
call was made, or from an alive check (`asked_of_mem`). What has been written are the frames of
the occasions, and it is read as their messages (`output_as_asked`). -/
namespace Doip

theorem Link.request_of_mem_acts {l : Link} {event : Link.Event} {id : CallId} {call : Call}
    (h : .request id call ∈ l.acts event) : event = .request id call := by
  cases event with
  | request id' call' =>
    cases List.mem_singleton.mp h
    rfl
  | read octets =>
    simp only [acts, readActs] at h
    split at h
    · cases h
    · split at h
      · cases List.mem_singleton.mp h
      · rcases List.mem_append.mp h with hframe | hlast
        · obtain ⟨f, -, hf⟩ := List.mem_map.mp hframe
          cases hf
        · split at hlast <;> cases List.mem_singleton.mp hlast
  | requestShutdown | retarget | take | abandoned | abort | readFailed | deadline =>
    cases List.mem_singleton.mp h

namespace Session

variable {s : Session}

theorem request_of_activate {request : Request} {type : ActivationType}
    (h : s.call? request = some (.activate type)) : request = .activate type := by
  cases request with
  | activate type' =>
    cases h
    rfl
  | receive timeout => cases h
  | send data timeout =>
    simp only [call?] at h
    split at h <;> cases h
  | collect timeout =>
    cases timeout with
    | none => cases h
    | some window =>
      obtain ⟨bound, -, hcall⟩ := Option.map_eq_some_iff.mp h
      cases hcall

theorem request_of_send {request : Request} {target : Address} {data : Octets}
    {timeout : Option Duration} (h : s.call? request = some (.send target data timeout)) :
    request = .send data timeout ∧ target = s.target ∧
      data.length + addressesLength ≤ s.link.tuning.maxPayload.toNat := by
  cases request with
  | activate type => cases h
  | receive timeout => cases h
  | send data' timeout' =>
    simp only [call?] at h
    split at h
    · cases h
    · rename_i hfits
      cases h
      exact ⟨rfl, rfl, Nat.not_lt.mp hfits⟩
  | collect timeout =>
    cases timeout with
    | none => cases h
    | some window =>
      obtain ⟨bound, -, hcall⟩ := Option.map_eq_some_iff.mp h
      cases hcall

/-- Where an occasion comes from, when the link has done `past` so far. A send goes to the target
of the moment at which it was asked for. -/
def Asked (events : List (Instant × Event)) (past : List (Instant × Link.Act)) (start : Session) :
    Occasion → Prop
  | .activation id type => ∃ earlier now later,
      events = earlier ++ (now, .ask id (.activate type)) :: later
  | .send id target data => ∃ earlier now timeout later,
      events = earlier ++ (now, .ask id (.send data timeout)) :: later ∧
        target = (run earlier start).1.target ∧
        data.length + addressesLength ≤ start.link.tuning.maxPayload.toNat
  | .aliveCheck => ∃ now f, (now, .dispatch f) ∈ past ∧ f.message = .ok .aliveCheckRequest

variable {events : List (Instant × Event)} {past : List (Instant × Link.Act)} {o : Occasion}

theorem ask_of_taken (idle : s.link.queue = []) (part : past <+: history events s) {id : CallId}
    {call : Call} (h : (id, call) ∈ Link.taken past s.link) :
    ∃ earlier now request later, events = earlier ++ (now, .ask id request) :: later ∧
      (run earlier s).1.call? request = some call := by
  rcases Link.requested_of_taken h with hqueued | ⟨now, hrequest⟩
  · rw [idle] at hqueued
    cases hqueued
  · obtain ⟨before, event, after, hpassed, hact⟩ := Link.mem_history (part.subset hrequest)
    obtain rfl := Link.request_of_mem_acts hact
    have hmem : (now, .request id call) ∈ passedAll events s := by
      rw [hpassed]
      exact List.mem_append_right _ List.mem_cons_self
    obtain ⟨earlier, request, later, hevents, hcall⟩ := ask_of_mem_passedAll hmem
    exact ⟨earlier, now, request, later, hevents, hcall⟩

theorem asked_of_mem (idle : s.link.queue = []) (part : past <+: history events s)
    (h : o ∈ Link.occasions past s.link) : Asked events past s o := by
  have hstems := Link.stems_of_mem h
  cases o with
  | activation id type =>
    obtain ⟨earlier, now, request, later, hevents, hcall⟩ := ask_of_taken idle part hstems
    obtain rfl := request_of_activate hcall
    exact ⟨earlier, now, later, hevents⟩
  | send id target data =>
    obtain ⟨timeout, htaken⟩ := hstems
    obtain ⟨earlier, now, request, later, hevents, hcall⟩ := ask_of_taken idle part htaken
    obtain ⟨rfl, htarget, hfits⟩ := request_of_send hcall
    rw [tuning_run] at hfits
    exact ⟨earlier, now, timeout, later, hevents, htarget, hfits⟩
  | aliveCheck => exact hstems

/-- The frames of these occasions, from a tester with these settings. -/
def framesOf (source : Address) (settings : Settings) (occasions : List Occasion) : List Frame :=
  occasions.map (Occasion.frame (.ofSettings source settings))

/-- The octets are the frames of the occasions, and whoever accepts payloads of this length reads
their messages. -/
structure Spells (source : Address) (settings : Settings) (occasions : List Occasion)
    (sent : Octets) : Prop where
  frames : sent = Frame.encodeAll (framesOf source settings occasions)
  headers : ∀ f ∈ framesOf source settings occasions,
    f.header.version = settings.protocolVersion ∧ f.header.payloadLength.toNat = f.payload.length
  read : ∀ limit : UInt32, max 7 settings.maxPayloadLength.toNat ≤ limit.toNat →
    reassemble limit sent = ⟨framesOf source settings occasions, [], none⟩
  messages : (framesOf source settings occasions).map Frame.message =
    occasions.map fun o => .ok (o.message source)

theorem spells_of_short {source : Address} {settings : Settings} {occasions : List Occasion}
    (short : ∀ o ∈ occasions, o.Short settings.maxPayloadLength.toNat) :
    Spells source settings occasions (Frame.encodeAll (framesOf source settings occasions)) := by
  refine ⟨rfl, ?_, fun limit hlimit => Link.reassemble_frames short hlimit, ?_⟩
  · intro f hf
    obtain ⟨o, ho, rfl⟩ := List.mem_map.mp hf
    have hlength := o.length_message source (short o ho)
    have hmax := settings.maxPayloadLength.toNat_lt
    have hfits : (Occasion.frame (.ofSettings source settings) o).Fits 0xFFFFFFFF := by
      refine Frame.fits_ofMessage (Nat.le_trans hlength ?_)
      change _ ≤ 4294967295
      omega
    exact ⟨rfl, hfits.length⟩
  · rw [framesOf, List.map_map]
    refine List.map_congr_left fun o ho => ?_
    exact o.decode_message source

/-- After any acts of any run the octets written are the frames of the occasions so far: of each
activation that was not refused, of each send, and of each alive check. The sends are those that
were taken, in their order, each with the data of its call and the target of that moment. -/
theorem output_as_asked (source target : Address) (settings : Settings)
    (events : List (Instant × Event)) :
    (run events (opened source target settings)).2.sent =
        (Link.actAll (history events (opened source target settings))
          (opened source target settings).link).2.sent ∧
      ∀ past, past <+: history events (opened source target settings) →
        Spells source settings (Link.occasions past (opened source target settings).link)
            (Link.actAll past (opened source target settings).link).2.sent ∧
          (Link.occasions past (opened source target settings).link).filterMap Occasion.send? =
            (Link.taken past (opened source target settings).link).filterMap Link.sendOf ∧
          (∀ id type, (id, .activate type) ∈ Link.taken past (opened source target settings).link →
            .activation id type ∈ Link.occasions past (opened source target settings).link ∨
              ⟨id, .failed (.invalidArgument "routing activation already in progress")⟩ ∈
                (Link.actAll past (opened source target settings).link).2.replies) ∧
          ∀ o ∈ Link.occasions past (opened source target settings).link,
            Asked events past (opened source target settings) o := by
  refine ⟨?_, ?_⟩
  · rw [sent_run, Link.run_eq_actAll, history]
  · intro past part
    have hasked : ∀ o ∈ Link.occasions past (opened source target settings).link,
        Asked events past (opened source target settings) o :=
      fun o ho => asked_of_mem rfl part ho
    refine ⟨?_, Link.sends_eq_taken past _, fun id type => Link.activation_or_refused, hasked⟩
    rw [Link.sent_actAll]
    refine spells_of_short fun o ho => ?_
    have horigin := hasked o ho
    cases o with
    | activation id type => trivial
    | aliveCheck => trivial
    | send id receiver data =>
      obtain ⟨-, -, -, -, -, -, hfits⟩ := horigin
      exact hfits

/-- Of two activations the second one is refused. The target changes before the engine takes the
first send. -/
def busyRun : List (Instant × Event) :=
  [(0, .ask 1 (.activate .default)), (0, .ask 2 (.activate .centralSecurity)),
    (1, .ask 3 (.send [0x3E, 0x00] none)), (1, .setTarget 0x0690), (2, .take), (2, .take),
    (2, .take), (3, .ask 4 (.send [0x10, 0x03] none)), (3, .take),
    (4, .read [0x02, 0xFD, 0x00, 0x07, 0, 0, 0, 0])]

theorem busyRun_spelled :
    Spells 0x0E00 {}
        [.activation 1 .default, .send 3 0x0680 [0x3E, 0x00], .send 4 0x0690 [0x10, 0x03],
          .aliveCheck]
        (run busyRun (opened 0x0E00 0x0680 {})).2.sent ∧
      Asked busyRun (history busyRun (opened 0x0E00 0x0680 {})) (opened 0x0E00 0x0680 {})
        (.send 3 0x0680 [0x3E, 0x00]) := by
  obtain ⟨hsent, hpast⟩ := output_as_asked 0x0E00 0x0680 {} busyRun
  obtain ⟨spells, -, -, asked⟩ := hpast _ List.prefix_rfl
  have occasions : Link.occasions (history busyRun (opened 0x0E00 0x0680 {}))
      (opened 0x0E00 0x0680 {}).link =
        [.activation 1 .default, .send 3 0x0680 [0x3E, 0x00], .send 4 0x0690 [0x10, 0x03],
          .aliveCheck] := by decide +kernel
  rw [occasions] at spells asked
  rw [hsent]
  exact ⟨spells, asked _ (by decide)⟩

example : (run busyRun (opened 0x0E00 0x0680 {})).2.sent =
    [0x02, 0xFD, 0x00, 0x05, 0, 0, 0, 7, 0x0E, 0x00, 0x00, 0, 0, 0, 0,
      0x02, 0xFD, 0x80, 0x01, 0, 0, 0, 6, 0x0E, 0x00, 0x06, 0x80, 0x3E, 0x00,
      0x02, 0xFD, 0x80, 0x01, 0, 0, 0, 6, 0x0E, 0x00, 0x06, 0x90, 0x10, 0x03,
      0x02, 0xFD, 0x00, 0x08, 0, 0, 0, 2, 0x0E, 0x00] := by
  decide +kernel

end Session
end Doip
