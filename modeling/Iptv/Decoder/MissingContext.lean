import Iptv.Decoder.PacketDecoding

namespace Iptv.Decoder

def DetectingImpl.isOpen (impl : DetectingImpl) : Bool := impl.codecContext.isSome

/-- A codec that can be found, allocated and opened. -/
def OpenReply.succeeds (reply : OpenReply) : Bool := reply.found && reply.allocated && reply.opened

/-- A `decode` call whose packet reaches the detection and makes it succeed. -/
def Call.detects : Call → Bool
  | .decode compressedData _ _ reply =>
    !compressedData.isEmpty && compressedData.length ≤ maximumPacketSize && reply.probeAllocated &&
      reply.format.isSome && reply.opening.succeeds
  | _ => false

/-- The calls that use the codec context without asking whether there is one. -/
def Call.assumesContext : Call → Bool
  | .decode .. => false
  | .flush _ | .getCodecInfo _ => true

/-- Every `flush` and `getCodecInfo` stands behind a successful detection. -/
def DetectedInTime (calls : List Call) : Prop :=
  ∀ before c after, calls = before ++ c :: after → c.assumesContext = true →
    ∃ earlier ∈ before, earlier.detects = true

theorem openCodecContext_results {codecHint : String} {reply : OpenReply} {context : CodecContext}
    (opened : openCodecContext codecHint reply = .ok context) : context.results = [] := by
  unfold openCodecContext at opened
  split at opened
  · cases opened
  · split at opened
    · cases opened
    · split at opened <;> cases opened
      rfl

theorem openCodecContext_isOk (codecHint : String) (reply : OpenReply) :
    (∃ context, openCodecContext codecHint reply = .ok context) ↔ reply.succeeds = true := by
  unfold openCodecContext OpenReply.succeeds
  cases reply.found <;> cases reply.allocated <;> cases reply.opened <;> simp

/-- What the constructor leaves: a fresh decoder, without a context for an empty hint only. -/
theorem construct_ok {codecHint : String} {reply : ConstructionReply} {impl : DetectingImpl}
    (accepted : construct codecHint reply = .ok impl) :
    impl.codecContext = (if codecHint = "" then none else some ⟨[]⟩) ∧ impl.nextPtsMs = 0 ∧
      impl.endOfStream = false := by
  unfold construct DetectingImpl.construct at accepted
  by_cases empty : codecHint = ""
  · simp only [empty, if_true, Except.bind] at accepted ⊢
    split at accepted
    · cases accepted
    · split at accepted <;> cases accepted
      exact ⟨rfl, rfl, rfl⟩
  · simp only [if_neg empty] at accepted ⊢
    cases opening : openCodecContext codecHint reply.opening with
    | error exception => simp [opening, Except.map, Except.bind, Except.mapError] at accepted
    | ok context =>
      simp only [opening, Except.map, Except.bind] at accepted
      split at accepted
      · cases accepted
      · split at accepted <;> cases accepted
        have fresh := openCodecContext_results opening
        exact ⟨by rw [← fresh], rfl, rfl⟩

theorem detectCodec_open {impl : DetectingImpl} {reply : PacketReply} (isOpen : impl.isOpen = true) :
    detectCodec impl reply = .ok impl := by
  unfold DetectingImpl.isOpen at isOpen
  unfold detectCodec
  split
  · rfl
  · rename_i missing
    simp [missing] at isOpen

/-- A detection that succeeds keeps the context or opens a fresh one, and touches no other state. -/
theorem detectCodec_ok {impl detected : DetectingImpl} {reply : PacketReply}
    (run : detectCodec impl reply = .ok detected) :
    ∃ context codecName, detected = { impl with codecContext := some context, codecName := codecName } ∧
      (impl.codecContext = some context ∨ impl.codecContext = none ∧ context.results = []) := by
  unfold detectCodec at run
  split at run
  · rename_i context present
    cases run
    exact ⟨context, impl.codecName, by rw [← present], Or.inl present⟩
  · rename_i missing
    split at run
    · cases run
    · split at run
      · cases run
      · split at run
        · cases run
        · rename_i name _ _ context opened
          cases run
          exact ⟨context, name, rfl, Or.inr ⟨missing, openCodecContext_results opened⟩⟩

/-- While the context is null, detection either fails or opens one. -/
theorem detectCodec_closed {impl : DetectingImpl} (reply : PacketReply) (closed : impl.isOpen = false) :
    (∃ detected, detectCodec impl reply = .ok detected ∧ detected.isOpen = true ∧
      (reply.probeAllocated && reply.format.isSome && reply.opening.succeeds) = true) ∨
    (∃ exception, detectCodec impl reply = .error exception ∧
      (reply.probeAllocated && reply.format.isSome && reply.opening.succeeds) = false) := by
  unfold DetectingImpl.isOpen at closed
  unfold detectCodec
  split
  · rename_i context present
    simp [present] at closed
  · split
    · rename_i failed
      exact Or.inr ⟨_, rfl, by simp [failed]⟩
    · rename_i allocated
      split
      · rename_i unknown
        exact Or.inr ⟨_, rfl, by simp [unknown]⟩
      · rename_i name format
        have opens := openCodecContext_isOk name reply.opening
        cases opening : openCodecContext name reply.opening with
        | error exception =>
          refine Or.inr ⟨_, rfl, ?_⟩
          have fails : reply.opening.succeeds = false := by
            by_contra succeeds
            obtain ⟨context, opened⟩ := opens.mpr (by simpa using succeeds)
            rw [opening] at opened
            cases opened
          simp [fails]
        | ok context =>
          refine Or.inl ⟨_, rfl, rfl, ?_⟩
          have succeeds := opens.mp ⟨context, opening⟩
          simp [Bool.eq_true_of_not_eq_false allocated, format, succeeds]

section
variable (avutil : AvUtil)

theorem releaseReadyFrames_keepsContext (results : List ReceiveResult) (nextPtsMs : Int)
    (frames : List DecodedFrame) :
    (releaseReadyFrames avutil results nextPtsMs frames).outcome ≠ .error .missingContext := by
  induction results generalizing nextPtsMs frames with
  | nil => simp [releaseReadyFrames]
  | cons result rest ih =>
    unfold releaseReadyFrames
    split
    · rename_i same; cases same
    · rename_i same
      cases same
      split
      · simp
      · exact ih _ _
    · simp
    · simp

/-- A packet sent to an open codec leaves it open, whatever comes of it. -/
theorem sendPacket_open {impl : DetectingImpl} (packet : AVPacket) (reply : PacketReply)
    (isOpen : impl.isOpen = true) :
    (sendPacket avutil impl packet reply).1 ≠ .error .missingContext ∧
      (sendPacket avutil impl packet reply).2.isOpen = true := by
  unfold sendPacket
  split
  · exact ⟨by simp, isOpen⟩
  · split
    · rename_i missing
      simp [DetectingImpl.isOpen, missing] at isOpen
    · dsimp only
      split
      · exact ⟨by simp, rfl⟩
      · exact ⟨by simp, rfl⟩
      · exact ⟨releaseReadyFrames_keepsContext _ _ _ _, rfl⟩

/-- A `decode` call never uses a missing context, and leaves an open one exactly
when there was one or its packet makes the detection succeed. -/
theorem decode_context (impl : DetectingImpl) (compressedData : List UInt8) (ptsUs dtsUs : Int)
    (reply : PacketReply) (live : impl.endOfStream = true → impl.isOpen = true) :
    (decode avutil impl compressedData ptsUs dtsUs reply).1 ≠ .error .missingContext ∧
      (decode avutil impl compressedData ptsUs dtsUs reply).2.isOpen =
        (impl.isOpen || (Call.decode compressedData ptsUs dtsUs reply).detects) := by
  unfold decode Call.detects
  by_cases empty : compressedData = []
  · simp [empty]
  by_cases ended : impl.endOfStream = true
  · simp [empty, ended, live ended]
  rw [if_neg empty, if_neg ended]
  unfold decodePacket
  by_cases large : maximumPacketSize < compressedData.length
  · have refused : ¬ compressedData.length ≤ maximumPacketSize := by omega
    simp [large, refused]
  have fits : compressedData.length ≤ maximumPacketSize := by omega
  rw [if_neg large]
  cases isOpen : impl.isOpen with
  | true =>
    rw [detectCodec_open isOpen]
    obtain ⟨sound, stays⟩ := sendPacket_open avutil (makePacket compressedData ptsUs dtsUs) reply isOpen
    exact ⟨sound, by simpa using stays⟩
  | false =>
    rcases detectCodec_closed reply isOpen with ⟨detected, run, opened, answers⟩ | ⟨_, run, answers⟩
    · rw [run]
      obtain ⟨sound, stays⟩ := sendPacket_open avutil (makePacket compressedData ptsUs dtsUs) reply opened
      refine ⟨sound, stays.trans (Eq.symm ?_)⟩
      simpa [empty, fits, Bool.and_assoc] using answers
    · rw [run]
      exact ⟨by simp, by simpa [empty, fits, isOpen, Bool.and_assoc] using answers⟩

theorem sendPacket_endOfStream (impl : DetectingImpl) (packet : AVPacket) (reply : PacketReply) :
    (sendPacket avutil impl packet reply).2.endOfStream = impl.endOfStream := by
  unfold sendPacket
  split
  · rfl
  · split
    · rfl
    · dsimp only
      split <;> rfl

/-- Only a flush closes the codec to input. -/
theorem decode_endOfStream (impl : DetectingImpl) (compressedData : List UInt8) (ptsUs dtsUs : Int)
    (reply : PacketReply) : (decode avutil impl compressedData ptsUs dtsUs reply).2.endOfStream = impl.endOfStream := by
  unfold decode decodePacket
  split
  · rfl
  · split
    · rfl
    · split
      · rfl
      · split
        · rfl
        · rename_i detected run
          obtain ⟨_, _, rfl, _⟩ := detectCodec_ok run
          exact sendPacket_endOfStream _ _ _ _

/-- A decoder whose codec was closed to input has one. -/
def DetectingImpl.Live (impl : DetectingImpl) : Prop := impl.endOfStream = true → impl.isOpen = true

/-- Before the first flush of an open decoder, a flush with a null context hands it to the codec. -/
theorem flush_context (impl : DetectingImpl) (reply : SendReply) (live : impl.Live) :
    ((flush avutil impl reply).1 = .error .missingContext ↔ impl.isOpen = false) ∧
      (flush avutil impl reply).2.isOpen = impl.isOpen ∧ (flush avutil impl reply).2.Live := by
  unfold flush drainRemainingFrames
  by_cases ended : impl.endOfStream = true
  · have isOpen := live ended
    rw [if_pos ended]
    exact ⟨by simp [isOpen], rfl, live⟩
  · rw [if_neg ended]
    cases context : impl.codecContext with
    | none => exact ⟨by simp [DetectingImpl.isOpen, context], rfl, live⟩
    | some context' =>
      have isOpen : impl.isOpen = true := by simp [DetectingImpl.isOpen, context]
      rw [isOpen]
      dsimp only
      split
      · exact ⟨by simp, rfl, fun _ => rfl⟩
      · exact ⟨by simpa using releaseReadyFrames_keepsContext _ _ _ _, rfl, fun _ => rfl⟩

theorem call_context (impl : DetectingImpl) (c : Call) (live : impl.Live) :
    ((call avutil impl c).1 = .failed .missingContext ↔ c.assumesContext = true ∧ impl.isOpen = false) ∧
      (call avutil impl c).2.isOpen = (impl.isOpen || c.detects) ∧ (call avutil impl c).2.Live := by
  have ofFrames : ∀ outcome,
      Answer.ofFrames outcome = .failed .missingContext ↔ outcome = .error .missingContext := by
    intro outcome
    cases outcome <;> simp [Answer.ofFrames]
  cases c with
  | decode compressedData ptsUs dtsUs reply =>
    obtain ⟨sound, opened⟩ := decode_context avutil impl compressedData ptsUs dtsUs reply live
    refine ⟨?_, opened, ?_⟩
    · simpa [call, ofFrames, Call.assumesContext] using sound
    · intro ended
      change (decode avutil impl compressedData ptsUs dtsUs reply).2.endOfStream = true at ended
      change (decode avutil impl compressedData ptsUs dtsUs reply).2.isOpen = true
      rw [decode_endOfStream] at ended
      rw [opened, live ended, Bool.true_or]
  | flush reply =>
    obtain ⟨missing, kept, stays⟩ := flush_context avutil impl reply live
    refine ⟨?_, ?_, stays⟩
    · simpa [call, ofFrames, Call.assumesContext] using missing
    · simpa [call, Call.detects] using kept
  | getCodecInfo report =>
    simp only [call, getCodecInfo, Call.assumesContext, Call.detects, true_and, Bool.or_false]
    cases context : impl.codecContext with
    | none => exact ⟨by simp [DetectingImpl.isOpen, context], rfl, live⟩
    | some _ => exact ⟨by simp [DetectingImpl.isOpen, context], rfl, live⟩

theorem detectedInTime_cons (c : Call) (rest : List Call) :
    DetectedInTime (c :: rest) ↔ c.assumesContext = false ∧ (c.detects = true ∨ DetectedInTime rest) := by
  constructor
  · intro inTime
    have own : c.assumesContext = false := by
      by_contra assumes
      obtain ⟨_, member, _⟩ := inTime [] c rest rfl (by simpa using assumes)
      cases member
    refine ⟨own, ?_⟩
    by_cases detects : c.detects = true
    · exact Or.inl detects
    · refine Or.inr fun before later after split assumes => ?_
      obtain ⟨earlier, member, found⟩ := inTime (c :: before) later after (by rw [split]; rfl) assumes
      rcases List.mem_cons.mp member with rfl | behind
      · exact absurd found detects
      · exact ⟨earlier, behind, found⟩
  · rintro ⟨own, inTime⟩ before later after split assumes
    cases before with
    | nil =>
      obtain ⟨rfl, _⟩ := List.cons.inj split
      rw [own] at assumes
      cases assumes
    | cons first before =>
      obtain ⟨rfl, tail⟩ := List.cons.inj split
      rcases inTime with detects | inTime
      · exact ⟨c, List.mem_cons_self, detects⟩
      · obtain ⟨earlier, member, found⟩ := inTime before later after tail assumes
        exact ⟨earlier, List.mem_cons_of_mem _ member, found⟩

/-- Calls use no missing context exactly on a decoder that has one or in time behind a detection. -/
theorem answers_context (calls : List Call) {impl : DetectingImpl} (live : impl.Live) :
    .failed .missingContext ∉ answers avutil impl calls ↔ impl.isOpen = true ∨ DetectedInTime calls := by
  induction calls generalizing impl with
  | nil => simp [answers, DetectedInTime]
  | cons c rest ih =>
    obtain ⟨missing, opened, stays⟩ := call_context avutil impl c live
    rw [answers, List.mem_cons, not_or, ih stays, opened, detectedInTime_cons, eq_comm, missing]
    cases impl.isOpen <;> cases c.assumesContext <;> simp

end

/-- A decoder that the constructor accepted never uses a missing context exactly
when its hint was not empty, or each `flush` and `getCodecInfo` comes behind a
`decode` call whose detection succeeded. -/
theorem context_present_iff (avutil : AvUtil) {codecHint : String} {reply : ConstructionReply} {impl : DetectingImpl}
    (accepted : construct codecHint reply = .ok impl) (calls : List Call) :
    .failed .missingContext ∉ answers avutil impl calls ↔ codecHint ≠ "" ∨ DetectedInTime calls := by
  obtain ⟨context, _, fresh⟩ := construct_ok accepted
  have live : impl.Live := fun ended => by simp [fresh] at ended
  have isOpen : impl.isOpen = true ↔ codecHint ≠ "" := by
    rw [DetectingImpl.isOpen, context]
    split <;> simp_all
  rw [answers_context avutil calls live, isOpen]

def everythingOpens : OpenReply := ⟨true, true, true⟩

/-- The decoder of `main.cpp`, which detects its codec. -/
def detectingDecoder : DetectingImpl := { codecContext := none, codecName := "" }

theorem detectingDecoder_accepted : construct "" ⟨everythingOpens, true, true⟩ = .ok detectingDecoder := rfl

def detectedPacket : Call :=
  .decode [0, 0, 1] 0 0 ⟨true, some "h264", everythingOpens, true, fun _ => ⟨none, []⟩⟩

theorem context_present_detectedPacket :
    construct "" ⟨everythingOpens, true, true⟩ = .ok detectingDecoder ∧
      (.failed .missingContext ∉ answers .plain detectingDecoder [detectedPacket, .flush ⟨none, []⟩] ↔
        "" ≠ "" ∨ DetectedInTime [detectedPacket, .flush ⟨none, []⟩]) ∧
      answers .plain detectingDecoder [detectedPacket, .flush ⟨none, []⟩] = [.returned [], .returned []] :=
  ⟨detectingDecoder_accepted, context_present_iff .plain detectingDecoder_accepted _, by decide⟩

/-- Before any packet, `flush` hands the null context to `avcodec_send_packet`
and `getCodecInfo` reads it. -/
theorem context_missing_earlyCalls :
    construct "" ⟨everythingOpens, true, true⟩ = .ok detectingDecoder ∧
      .failed .missingContext ∈ answers .plain detectingDecoder [.flush ⟨none, []⟩] ∧
      .failed .missingContext ∈ answers .plain detectingDecoder [.getCodecInfo ⟨⟨25, 1⟩, 0, 0⟩] :=
  ⟨detectingDecoder_accepted, by decide, by decide⟩

end Iptv.Decoder
