import Raspdif.Lib.TagMessage
import Raspdif.Lib.Translation
import Raspdif.Process.Release

/-!
# The mailbox, word by word

`mailbox.c` over the buffers that it hands to `ioctl`.  Each request is a message of one tag,
and what comes back is read at the places where such a message has its codes and its first
value (`mailboxCall_of_run`).

The rest of the process knows a request as a `MailboxMessage` and the response as a
`MailboxReply`.  `vcio` puts the words back: the functions of `memory.c` over the words are
those of the process, translated, and the process has the same runs over the words as
before (`process_over_words`).
-/

namespace Raspdif.Process

open Interaction Program Trace TagMessage

/-! ## Calls -/

inductive WireCall
  | openVcio
  | ioctl (request : List Word)
  | other (call : EnvCall)

@[reducible] def WireCall.Answer : WireCall → Type
  | .openVcio => Int
  /- What is returned, and the buffer behind the call. -/
  | .ioctl request => Int × { response : List Word // response.length = request.length }
  | .other own => own.Answer

@[reducible] def wire : Interface where
  Op := WireCall
  Answer := WireCall.Answer

abbrev WireEvent := Exchange wire

abbrev WireProg := Program Globals wire

/-! ## Requests -/

/-- `mailbox_tag_id_t`. -/
inductive MailboxTagId
  | getDmaChannels
  | allocateMemory
  | lockMemory
  | unlockMemory
  | releaseMemory
  deriving DecidableEq, Repr

/-- The value of the enumerator. -/
def MailboxTagId.code : MailboxTagId → Word
  | .getDmaChannels => 0x00060001
  | .allocateMemory => 0x0003000c
  | .lockMemory => 0x0003000d
  | .unlockMemory => 0x0003000e
  | .releaseMemory => 0x0003000f

/-- `mailbox_message_allocate_memory_request_t`, as it is filled in. -/
def allocateMemoryRequest (size alignment flags : Word) : List Word :=
  [36, 0, MailboxTagId.allocateMemory.code, 12, 0, size, alignment, flags, 0]

/-- The requests with a handle, and the one with `pad` in its place. -/
def valueRequest (identifier : MailboxTagId) (value : Word) : List Word :=
  [28, 0, identifier.code, 4, 0, value, 0]

def MailboxMessage.request : MailboxMessage → List Word
  | .allocateMemory size alignment flags => allocateMemoryRequest size alignment flags
  | .lockMemory handle => valueRequest .lockMemory handle
  | .unlockMemory handle => valueRequest .unlockMemory handle
  | .releaseMemory handle => valueRequest .releaseMemory handle

/-! ## Functions -/

/-- What a response has at the places of the codes and of the first value. -/
def wireReply (result : Int) (response : List Word) : MailboxReply :=
  ⟨result, response.getD 1 0, response.getD 4 0, response.getD 5 0⟩

/-- A call of the process over the words. -/
def EnvCall.overWire : EnvCall → WireCall
  | .openVcio _ => .openVcio
  | .ioctl message => .ioctl message.request
  | own => .other own

/-- What the process makes of the answer. -/
def EnvCall.fromWire : (own : EnvCall) → own.overWire.Answer → own.Answer
  | .openVcio _, mbox => mbox
  | .ioctl _, answer => wireReply answer.1 answer.2.1
  | .argpParse, answer | .sigaction _, answer | .bcmHostIsModelPi4, answer
  | .bcmHostGetPeripheralAddress, answer | .bcmHostGetPeripheralSize, answer
  | .bcmHostGetSdramAddress, answer | .openMem, answer | .mmap _ _, answer | .close, answer
  | .sysconfPageSize, answer | .nanosleep _, answer | .readClockControl, answer
  | .writeClockControl _, answer | .writeClockDivisor _, answer | .clockIdle, answer
  | .pcm _, answer | .pcmSynced _, answer | .dma _ _, answer | .gpioConfigureMask _ _, answer
  | .openInput _, answer | .fcntl, answer | .outside, answer | .poll, answer
  | .undefinedConversion, answer | .raspdifInit _, answer | .raspdifShutdown, answer => answer

def vcio : Translation environment wire where
  call := EnvCall.overWire
  answer := EnvCall.fromWire

/-! ## The functions -/

/-- `log.c` makes no calls. -/
def wireLogPrint (level : LogLevel) : WireProg Unit := (logPrint level).translate vcio

def wirePerform (op : WireCall) : WireProg op.Answer := Program.perform (I := wire) op

namespace Wire

/-- `mailbox_send`, with the buffer it leaves behind.  A pointer may be `NULL`. -/
def mailboxSend : Option (List Word) → WireProg (Int × List Word)
  -- `assert(buffer != NULL)`
  | none => .fail
  | some buffer => do
      let mbox ← wirePerform .openVcio
      if mbox < 0 then do
        wireLogPrint .fatal
        pure (-1, buffer)
      else do
        let answer ← wirePerform (.ioctl buffer)
        when (answer.1 < 0) (wireLogPrint .error)
        let closed ← wirePerform (.other .close)
        when (closed < 0) (wireLogPrint .error)
        pure (answer.1, answer.2.1)

/-- The functions differ in their request and in what they return on an error. -/
def mailboxRequest (request : List Word) (error : Word) : WireProg Word := do
  let (result, response) ← mailboxSend (some request)
  if result < 0 then pure error
  else if response.getD 1 0 &&& mailboxCodeSuccess ≠ mailboxCodeSuccess then pure error
  else if response.getD 4 0 &&& mailboxCodeSuccess ≠ mailboxCodeSuccess then pure error
  else pure (response.getD 5 0)

def mailboxAllocateMemory (size alignment flags : Word) : WireProg Word :=
  mailboxRequest (allocateMemoryRequest size alignment flags) (-1)

def mailboxLockMemory (handle : Word) : WireProg Word :=
  mailboxRequest (valueRequest .lockMemory handle) 0

def mailboxUnlockMemory (handle : Word) : WireProg Word :=
  mailboxRequest (valueRequest .unlockMemory handle) (-1)

def mailboxReleaseMemory (handle : Word) : WireProg Word :=
  mailboxRequest (valueRequest .releaseMemory handle) (-1)

/-- The mask is logged. -/
def mailboxGetDmaChannelMask : WireProg Word := do
  let (result, response) ← mailboxSend (some (valueRequest .getDmaChannels 0))
  if result < 0 then pure (-1)
  else if response.getD 1 0 &&& mailboxCodeSuccess ≠ mailboxCodeSuccess then pure (-1)
  else if response.getD 4 0 &&& mailboxCodeSuccess ≠ mailboxCodeSuccess then pure (-1)
  else do
    wireLogPrint .debug
    pure (response.getD 5 0)

def memoryAllocatePhysical (length : BitVec 32) : WireProg MemoryPhysical := do
  let pageSize ← wirePerform (.other .sysconfPageSize)
  let handle ← mailboxAllocateMemory length pageSize memoryFlags
  if handle.toInt < 0 then do
    wireLogPrint .error
    pure ⟨handle, 0⟩
  else do
    let address ← mailboxLockMemory handle
    if address = 0 then do
      wireLogPrint .error
      pure ⟨handle, address⟩
    else do
      wireLogPrint .debug
      pure ⟨handle, address⟩

def memoryReleasePhysical (memory : MemoryPhysical) : WireProg (BitVec 32) := do
  let result ← mailboxUnlockMemory memory.handle
  if result.toInt < 0 then do
    wireLogPrint .error
    pure result
  else do
    let result ← mailboxReleaseMemory memory.handle
    if result.toInt < 0 then do
      wireLogPrint .error
      pure result
    else pure 0

end Wire

/-- The functions of `mailbox.h`. -/
inductive MailboxCall
  | allocateMemory (size alignment flags : Word)
  | lockMemory (handle : Word)
  | unlockMemory (handle : Word)
  | releaseMemory (handle : Word)
  | getDmaChannelMask

def MailboxCall.program : MailboxCall → WireProg Word
  | .allocateMemory size alignment flags => Wire.mailboxAllocateMemory size alignment flags
  | .lockMemory handle => Wire.mailboxLockMemory handle
  | .unlockMemory handle => Wire.mailboxUnlockMemory handle
  | .releaseMemory handle => Wire.mailboxReleaseMemory handle
  | .getDmaChannelMask => Wire.mailboxGetDmaChannelMask

/-! ## What is asked and what comes back -/

/-- A request in its tag. -/
def MailboxCall.tag : MailboxCall → Tag
  | .allocateMemory size alignment flags =>
      ⟨MailboxTagId.allocateMemory.code, 0, [size, alignment, flags]⟩
  | .lockMemory handle => ⟨MailboxTagId.lockMemory.code, 0, [handle]⟩
  | .unlockMemory handle => ⟨MailboxTagId.unlockMemory.code, 0, [handle]⟩
  | .releaseMemory handle => ⟨MailboxTagId.releaseMemory.code, 0, [handle]⟩
  | .getDmaChannelMask => ⟨MailboxTagId.getDmaChannels.code, 0, [0]⟩

/-- What is returned on an error. -/
def MailboxCall.error : MailboxCall → Word
  | .lockMemory _ => 0
  | _ => -1

def MailboxMessage.asked : MailboxMessage → MailboxCall
  | .allocateMemory size alignment flags => .allocateMemory size alignment flags
  | .lockMemory handle => .lockMemory handle
  | .unlockMemory handle => .unlockMemory handle
  | .releaseMemory handle => .releaseMemory handle

/-- The buffer that asks for this. -/
def MailboxCall.request (mailboxCall : MailboxCall) : List Word :=
  Message.encode ⟨0, [mailboxCall.tag]⟩

theorem decode_request (mailboxCall : MailboxCall) :
    decode mailboxCall.request = some ⟨0, [mailboxCall.tag]⟩ := by
  apply decode_encode
  constructor
  · intro tag member
    obtain rfl := List.mem_singleton.mp member
    cases mailboxCall <;> exact of_decide_eq_true rfl
  · cases mailboxCall <;> exact of_decide_eq_true rfl

theorem request_asked (message : MailboxMessage) : message.request = message.asked.request := by
  cases message <;> rfl

/-- The words of a response that are read, by the format. -/
theorem wireReply_of_decode {result : Int} {response : List Word} {code : Word} {tag : Tag}
    {tags : List Tag} {first : Word} {values : List Word}
    (decoded : decode response = some ⟨code, tag :: tags⟩)
    (some_value : tag.values = first :: values) :
    wireReply result response = ⟨result, code, tag.code, first⟩ := by
  obtain ⟨-, rfl⟩ := decode_eq_some_iff.mp decoded
  rw [Message.encode, encodeTags_cons, Tag.encode, some_value]
  rfl

/-! ## The process over the words -/

/-- What `mailbox_send` leaves is not read when the device cannot be opened. -/
theorem translate_mailboxRequest (message : MailboxMessage) (error : BitVec 32) :
    (mailboxRequest message error).translate vcio = Wire.mailboxRequest message.request error := by
  simp only [mailboxRequest, mailboxSend, Wire.mailboxRequest, Wire.mailboxSend, bind_assoc,
    translate_bind, translate_ite, translate_when]
  change wirePerform .openVcio >>= _ = _
  apply bind_congr
  intro mbox
  by_cases fails : mbox < 0
  · rw [if_pos fails, if_pos fails, bind_assoc, bind_assoc]
    apply bind_congr
    intro logged
    rfl
  · rw [if_neg fails, if_neg fails]
    simp only [bind_assoc]
    change wirePerform (.ioctl message.request) >>= _ = _
    apply bind_congr
    intro answer
    apply bind_congr
    intro logged
    change wirePerform (.other .close) >>= _ = _
    apply bind_congr
    intro closed
    apply bind_congr
    intro logged
    rfl

theorem translate_memoryAllocatePhysical (length : BitVec 32) :
    (memoryAllocatePhysical length).translate vcio = Wire.memoryAllocatePhysical length := by
  simp only [memoryAllocatePhysical, Wire.memoryAllocatePhysical, mailboxAllocateMemory,
    mailboxLockMemory, translate_bind, translate_ite, translate_mailboxRequest]
  rfl

theorem translate_memoryReleasePhysical (memory : MemoryPhysical) :
    (memoryReleasePhysical memory).translate vcio = Wire.memoryReleasePhysical memory := by
  simp only [memoryReleasePhysical, Wire.memoryReleasePhysical, mailboxUnlockMemory,
    mailboxReleaseMemory, translate_bind, translate_ite, translate_mailboxRequest]
  rfl

/-! ## A call -/

/-- A request, what `ioctl` returned, and the response. -/
structure Transaction where
  request : List Word
  result : Int
  response : List Word

def WireCall.transaction? : (op : WireCall) → op.Answer → Option Transaction
  | .ioctl request, answer => some ⟨request, answer.1, answer.2.1⟩
  | _, _ => none

def transactions (trace : List WireEvent) : List Transaction :=
  trace.filterMap fun e => e.op.transaction? e.answer

/-- The transactions of a run are counted, and no assertion fails. -/
def mailboxContract : Contract Globals (List Transaction) wire where
  record past e := past ++ (e.op.transaction? e.answer).toList
  promised _ := True
  during _ _ := True
  exited _ _ := True
  failed _ _ := False

theorem foldl_mailboxContract (past : List Transaction) (trace : List WireEvent) :
    trace.foldl mailboxContract.record past = past ++ transactions trace := by
  induction trace generalizing past with
  | nil => exact (List.append_nil past).symm
  | cons e trace ih =>
      rw [List.foldl_cons, ih]
      change past ++ (e.op.transaction? e.answer).toList ++ transactions trace =
        past ++ List.filterMap _ (e :: trace)
      rw [List.filterMap_cons]
      cases e.op.transaction? e.answer with
      | none => rw [Option.toList_none, List.append_nil, transactions]
      | some _ => rw [Option.toList_some, List.append_assoc, transactions, List.singleton_append]

namespace Wire

variable {past : List Transaction} {g : Globals}

theorem meets_wireLogPrint {level : LogLevel} {post : Unit → List Transaction → Globals → Prop}
    (met : post () past g) : (wireLogPrint level).Meets mailboxContract post past g := by
  rw [wireLogPrint, logPrint, translate_bind]
  apply meets_bind.mpr
  refine ⟨trivial, ?_⟩
  change Meets mailboxContract post (translate vcio (if _ then _ else _)) past g
  rw [translate_ite, translate_ite]
  apply meets_ite.mpr
  constructor
  · exact fun _ => met
  · intro _
    apply meets_ite.mpr
    exact ⟨fun _ => ⟨trivial, trivial⟩, fun _ => met⟩

theorem meets_when_log {level : LogLevel} {P : Prop} [Decidable P]
    {post : Unit → List Transaction → Globals → Prop} (met : post () past g) :
    (when P (wireLogPrint level)).Meets mailboxContract post past g :=
  meets_when.mpr ⟨fun _ => meets_wireLogPrint met, fun _ => met⟩

/-- The buffer is sent once, or not at all. -/
theorem meets_mailboxSend {buffer : List Word}
    {post : Int × List Word → List Transaction → Globals → Prop}
    (unopened : post (-1, buffer) past g)
    (sent : ∀ result response, post (result, response) (past ++ [⟨buffer, result, response⟩]) g) :
    (Wire.mailboxSend (some buffer)).Meets mailboxContract post past g := by
  apply meets_bind.mpr
  refine ⟨trivial, fun mbox _ => ?_⟩
  have nothing : mailboxContract.record past ⟨.openVcio, mbox⟩ = past := List.append_nil past
  rw [nothing]
  apply meets_ite.mpr
  constructor
  · intro _
    apply meets_bind.mpr
    exact meets_wireLogPrint unopened
  · intro _
    apply meets_bind.mpr
    refine ⟨trivial, fun answer _ => ?_⟩
    apply meets_bind.mpr
    apply meets_when_log
    apply meets_bind.mpr
    refine ⟨trivial, fun closed _ => ?_⟩
    apply meets_bind.mpr
    apply meets_when_log
    change post (answer.1, answer.2.1) (past ++ [⟨buffer, answer.1, answer.2.1⟩] ++ []) g
    rw [List.append_nil]
    exact sent answer.1 answer.2.1

/-- What a function returns for a response. -/
def returned (error : Word) (result : Int) (response : List Word) : Word :=
  if (wireReply result response).Granted then response.getD 5 0 else error

/-- A function has returned this: its request was sent, or the device could not be opened. -/
def Answered (request : List Word) (error value : Word) (past : List Transaction) : Prop :=
  past = [] ∧ value = error ∨
    ∃ result response, past = [⟨request, result, response⟩] ∧
      value = returned error result response

/-- The checks of a function, and what it goes on with. -/
theorem meets_checks {request : List Word} {error : Word} {next : List Word → WireProg Word}
    (goesOn : ∀ response past, (next response).Meets mailboxContract
      (fun value past' _ => value = response.getD 5 0 ∧ past' = past) past g) :
    (do
      let (result, response) ← mailboxSend (some request)
      if result < 0 then pure error
      else if response.getD 1 0 &&& mailboxCodeSuccess ≠ mailboxCodeSuccess then pure error
      else if response.getD 4 0 &&& mailboxCodeSuccess ≠ mailboxCodeSuccess then pure error
      else next response).Meets mailboxContract
        (fun value past _ => Answered request error value past) [] g := by
  apply meets_bind.mpr
  apply meets_mailboxSend
  · apply meets_ite.mpr
    exact ⟨fun _ => Or.inl ⟨rfl, rfl⟩, fun impossible => absurd (by decide) impossible⟩
  · intro result response
    have failed (refused : ¬ (wireReply result response).Granted) :
        Answered request error error ([] ++ [⟨request, result, response⟩]) :=
      Or.inr ⟨result, response, rfl, (if_neg refused).symm⟩
    apply meets_ite.mpr
    refine ⟨fun negative => failed fun granted => ?_, fun ok => ?_⟩
    · exact absurd negative (Int.not_lt.mpr granted.1)
    apply meets_ite.mpr
    refine ⟨fun other => failed fun granted => other granted.2.1, fun code => ?_⟩
    apply meets_ite.mpr
    refine ⟨fun other => failed fun granted => other granted.2.2, fun tagCode => ?_⟩
    have granted : (wireReply result response).Granted :=
      ⟨Int.not_lt.mp ok, not_not.mp code, not_not.mp tagCode⟩
    refine (goesOn response _).mono ?_
    rintro value past _ ⟨rfl, rfl⟩
    exact Or.inr ⟨result, response, rfl, (if_pos granted).symm⟩

theorem meets_mailboxRequest (request : List Word) (error : Word) :
    (mailboxRequest request error).Meets mailboxContract
      (fun value past _ => Answered request error value past) [] g :=
  @meets_checks g request error (fun response => pure (response.getD 5 0)) fun _ _ => ⟨rfl, rfl⟩

theorem meets_mailboxCall (mailboxCall : MailboxCall) :
    mailboxCall.program.Meets mailboxContract
      (fun value past _ => Answered mailboxCall.request mailboxCall.error value past) [] g := by
  cases mailboxCall with
  | allocateMemory | lockMemory | unlockMemory | releaseMemory =>
      exact meets_mailboxRequest _ _
  | getDmaChannelMask =>
      refine @meets_checks g (valueRequest .getDmaChannels 0) (-1)
        (fun response => do
          wireLogPrint .debug
          pure (response.getD 5 0)) fun response past => ?_
      apply meets_bind.mpr
      exact meets_wireLogPrint ⟨rfl, rfl⟩

end Wire

theorem and_mailboxCodeSuccess (word : BitVec 32) :
    word &&& mailboxCodeSuccess = mailboxCodeSuccess ↔ word.msb = true := by
  have last : mailboxCodeSuccess = BitVec.twoPow 32 31 := by decide
  rw [last, BitVec.and_twoPow, BitVec.msb_eq_getLsbD_last]
  cases word.getLsbD 31 <;> decide

/-- **A call of the mailbox.**  It fails no assertion.  Where it returns, its one request has been
sent once, and is the message of one tag that asks for it, or the device could not be opened and
nothing was sent.  Where the response is a message, its first value is returned if `ioctl`
succeeded and both codes say so, and the error value otherwise. -/
theorem mailboxCall_of_run {mailboxCall : MailboxCall} {g : Globals} {trace : List WireEvent}
    {point : Point Globals wire Word}
    (run : Run Point.Step ⟨g, mailboxCall.program⟩ trace point) :
    point.rest ≠ .fail ∧ ∀ value, point.rest = .done value →
      transactions trace = [] ∧ value = mailboxCall.error ∨
        ∃ request result response, transactions trace = [⟨request, result, response⟩] ∧
          decode request = some ⟨0, [mailboxCall.tag]⟩ ∧
          ∀ code tag tags first values, decode response = some ⟨code, tag :: tags⟩ →
            tag.values = first :: values →
            value = if 0 ≤ result ∧ code.msb = true ∧ tag.code.msb = true then first
              else mailboxCall.error := by
  have met := (Wire.meets_mailboxCall mailboxCall).run run fun _ _ => trivial
  rw [foldl_mailboxContract, List.nil_append] at met
  constructor
  · intro fails
    rw [fails] at met
    exact met.2
  intro value returns
  rw [returns] at met
  rcases met with ⟨nothing, failed⟩ | ⟨result, response, once, answered⟩
  · exact Or.inl ⟨nothing, failed⟩
  · refine Or.inr ⟨_, result, response, once, decode_request mailboxCall, ?_⟩
    intro code tag tags first values decoded some_value
    have reply : wireReply result response = ⟨result, code, tag.code, first⟩ :=
      wireReply_of_decode decoded some_value
    have place : response.getD 5 0 = first := congrArg MailboxReply.value reply
    have granted : (MailboxReply.mk result code tag.code first).Granted ↔
        0 ≤ result ∧ code.msb = true ∧ tag.code.msb = true := by
      change _ ∧ _ ∧ _ ↔ _
      rw [and_mailboxCodeSuccess, and_mailboxCodeSuccess]
    rw [answered, Wire.returned, reply, place]
    exact if_congr granted rfl rfl

/-- An environment where all goes well; the block is at this bus address. -/
def wireAnswers : (op : WireCall) → op.Answer
  | .openVcio => 3
  | .ioctl request => (0, ⟨((request.set 1 0x80000000).set 4 0x80000004).set 5 0xC4000000, by
      rw [List.length_set, List.length_set, List.length_set]⟩)
  | .other own => answers ⟨0, 0, 0, 0⟩ own

theorem mailboxCall_lock : ∃ trace state request result response,
    Run Point.Step ⟨Globals.initial, (MailboxCall.lockMemory 7).program⟩ trace
        ⟨state, .done 0xC4000000⟩ ∧
      transactions trace = [⟨request, result, response⟩] ∧
      decode request = some ⟨0, [⟨MailboxTagId.lockMemory.code, 0, [7]⟩]⟩ := by
  have run := Program.run_exec (I := wire) wireAnswers (MailboxCall.lockMemory 7).program
    Globals.initial
  rcases (mailboxCall_of_run run).2 _ rfl with
    ⟨-, failed⟩ | ⟨request, result, response, once, asked, -⟩
  · exact absurd failed (by decide)
  · exact ⟨_, _, request, result, response, run, once, asked⟩

/-! ## The process -/

/-- An exchange of the process and the same over the words: a request is the message of one
tag that asks for it, and a reply is what the response says. -/
inductive Spoken : EnvEvent → WireEvent → Prop
  | openVcio (message : MailboxMessage) (mbox : Int) :
    Spoken ⟨.openVcio message, mbox⟩ ⟨.openVcio, mbox⟩
  | ioctl (message : MailboxMessage) (reply : MailboxReply) (request : List Word)
    (answer : (WireCall.ioctl request).Answer) :
    decode request = some ⟨0, [message.asked.tag]⟩ → reply.result = answer.1 →
    (∀ code tag tags first values, decode answer.2.1 = some ⟨code, tag :: tags⟩ →
      tag.values = first :: values → reply = ⟨answer.1, code, tag.code, first⟩) →
    Spoken ⟨.ioctl message, reply⟩ ⟨.ioctl request, answer⟩
  | other (own : EnvCall) (answer : own.Answer) : Spoken ⟨own, answer⟩ ⟨.other own, answer⟩

theorem spoken_of_carries {e : EnvEvent} {e' : WireEvent} (carries : vcio.Carries e e') :
    Spoken e e' := by
  obtain ⟨own, answer⟩ := carries
  cases own with
  | openVcio message => exact .openVcio message answer
  | ioctl message =>
      apply Spoken.ioctl
      · rw [request_asked, decode_request]
      · rfl
      · exact fun code tag tags first values => wireReply_of_decode
  | _ => exact .other _ _

/-- **The process over the words.**  `memory.c` over the buffers of `mailbox.c` is `memory.c` of
the process, call by call; and whatever `main` or a handler does over the words, it does with
the messages that they spell. -/
theorem process_over_words :
    (∀ length,
      (memoryAllocatePhysical length).translate vcio = Wire.memoryAllocatePhysical length) ∧
    (∀ memory, (memoryReleasePhysical memory).translate vcio = Wire.memoryReleasePhysical memory) ∧
    ∀ {p : Prog Unit} {g : Globals} {trace : List WireEvent} {point : Point Globals wire Unit},
      Run Point.Step ⟨g, p.translate vcio⟩ trace point →
      ∃ own rest, Run Point.Step ⟨g, p⟩ own ⟨point.state, rest⟩ ∧
        point.rest = rest.translate vcio ∧ List.Forall₂ Spoken own trace := by
  refine ⟨translate_memoryAllocatePhysical, translate_memoryReleasePhysical, ?_⟩
  intro p g trace point run
  obtain ⟨own, state, rest, same, carried, rfl⟩ := run_translate.mp run
  exact ⟨own, rest, same, rfl, carried.imp fun _ _ => spoken_of_carries⟩

/-- `main` to the end of an empty input. -/
theorem process_over_words_empty_input : ∃ trace own rest,
    (∃ point, Run Point.Step ⟨Globals.initial, (main 4).translate vcio⟩ trace point) ∧
      (∃ state, Run Point.Step ⟨Globals.initial, main 4⟩ own ⟨state, rest⟩) ∧
      List.Forall₂ Spoken own trace := by
  have run := Program.run_exec (I := wire) wireAnswers ((main 4).translate vcio) Globals.initial
  obtain ⟨own, rest, same, -, spoken⟩ := process_over_words.2.2 run
  exact ⟨_, own, rest, ⟨_, run⟩, ⟨_, same⟩, spoken⟩

end Raspdif.Process
