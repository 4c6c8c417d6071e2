import Mathlib.Data.List.Chain
import Iptv.Decoder.TimeBases

namespace Iptv.Decoder
variable {avutil : AvUtil}

/-- A packet as a call hands it to `avcodec_send_packet`, with the timestamps that the call was given. -/
structure Sent where
  ptsUs : Int
  dtsUs : Int
  packet : AVPacket

def AVPacket.decodeStamp (packet : AVPacket) : Int := packet.dts.getD Audio.noPtsValue

/-- What stands in a packet for a timestamp of the caller; `-1` means that there is none. -/
def stampOf (us : Int) : Int := if us = -1 then Audio.noPtsValue else us

/-- The packet carries the timestamps of its own call. -/
structure Sent.Own (sent : Sent) : Prop where
  pts : sent.packet.stamp = stampOf sent.ptsUs
  dts : sent.packet.decodeStamp = stampOf sent.dtsUs

/-- `av_packet_unref`: the fields go back to their defaults. -/
def avPacketUnref (_ : AVPacket) : AVPacket := { data := [] }

/-- `av_new_packet`: fresh fields and a buffer of the given size. -/
def avNewPacket (_ : AVPacket) (size : Nat) : AVPacket := { data := List.replicate size 0 }

/-- What `decodePacket` does to the packet that the decoder keeps, up to the send. -/
def preparePacket (packet : AVPacket) (compressedData : List UInt8) (ptsUs dtsUs : Int) : AVPacket :=
  let allocated := avNewPacket (avPacketUnref packet) compressedData.length
  let copied := { allocated with data := compressedData }
  let presented := if ptsUs ≠ -1 then { copied with pts := some ptsUs } else copied
  if dtsUs ≠ -1 then { presented with dts := some dtsUs } else presented

/-- Whatever an earlier call left in the packet is gone. -/
theorem preparePacket_eq (packet : AVPacket) (compressedData : List UInt8) (ptsUs dtsUs : Int) :
    preparePacket packet compressedData ptsUs dtsUs = makePacket compressedData ptsUs dtsUs := by
  unfold preparePacket makePacket avNewPacket
  by_cases presented : ptsUs = -1 <;> by_cases decoded : dtsUs = -1 <;> simp [presented, decoded]

/-- The video decoder with the packet that it keeps from call to call. -/
structure VideoPackets where
  impl : DetectingImpl
  packet : AVPacket := { data := [] }

inductive VideoCall
  | decode (compressedData : List UInt8) (ptsUs dtsUs : Int) (reply : PacketReply)
  | flush (reply : SendReply)

/-- The packet is released before the new buffer is asked for. -/
def reachesPacket (impl : DetectingImpl) (compressedData : List UInt8) (reply : PacketReply) : Bool :=
  !compressedData.isEmpty && !impl.endOfStream && compressedData.length ≤ maximumPacketSize &&
    (detectCodec impl reply).isOk

def videoPacketStep (avutil : AvUtil) (s : VideoPackets) : VideoCall → Option (VideoPackets × List Sent)
  | .decode compressedData ptsUs dtsUs reply =>
    let packet := preparePacket s.packet compressedData ptsUs dtsUs
    some (⟨(decode avutil s.impl compressedData ptsUs dtsUs reply).2,
        if reachesPacket s.impl compressedData reply then avPacketUnref packet else s.packet⟩,
      if reachesCodec s.impl compressedData reply then [⟨ptsUs, dtsUs, packet⟩] else [])
  | .flush reply => some (⟨(flush avutil s.impl reply).2, s.packet⟩, [])

theorem sendPacket_refused {impl : DetectingImpl} {reply : PacketReply} (refused : reply.packetAllocated = false)
    (packet : AVPacket) (send : AVPacket → SendReply) :
    sendPacket avutil impl packet reply = sendPacket avutil impl packet { reply with send } := by
  simp [sendPacket, refused]

/-- A call that does not get as far as `avcodec_send_packet` does not ask the codec. -/
theorem decode_unsent (avutil : AvUtil) {impl : DetectingImpl} {compressedData : List UInt8} {reply : PacketReply}
    (stopped : reachesCodec impl compressedData reply = false) (ptsUs dtsUs : Int) (send : AVPacket → SendReply) :
    decode avutil impl compressedData ptsUs dtsUs { reply with send } =
      decode avutil impl compressedData ptsUs dtsUs reply := by
  have same : detectCodec impl { reply with send } = detectCodec impl reply := rfl
  unfold decode decodePacket
  rw [same]
  by_cases empty : compressedData = []
  · simp [empty]
  by_cases ended : impl.endOfStream = true
  · simp [ended]
  by_cases large : maximumPacketSize < compressedData.length
  · simp [large]
  cases run : detectCodec impl reply with
  | error exception => rfl
  | ok detected =>
    have fits : compressedData.length ≤ maximumPacketSize := by omega
    have refused : reply.packetAllocated = false := by
      simpa [reachesCodec, empty, ended, fits, run, Except.isOk, Except.toBool] using stopped
    simp only [sendPacket_refused refused _ send]

/-- Of all packets, the call depends on what the codec answers to these only. -/
def VideoCall.Asks (avutil : AvUtil) (impl : DetectingImpl) : VideoCall → List AVPacket → Prop
  | .decode compressedData ptsUs dtsUs reply, packets =>
    ∀ send, (∀ packet ∈ packets, send packet = reply.send packet) →
      Decoder.decode avutil impl compressedData ptsUs dtsUs { reply with send } =
        Decoder.decode avutil impl compressedData ptsUs dtsUs reply
  | .flush _, packets => packets = []

theorem sendPacket_asks {impl : DetectingImpl} {packet : AVPacket} {reply : PacketReply} {send : AVPacket → SendReply}
    (same : send packet = reply.send packet) :
    sendPacket avutil impl packet { reply with send } = sendPacket avutil impl packet reply := by
  simp only [sendPacket, same]

theorem videoPacketStep_asks {s s' : VideoPackets} {c : VideoCall} {new : List Sent}
    (run : videoPacketStep avutil s c = some (s', new)) : c.Asks avutil s.impl (new.map (·.packet)) := by
  cases c with
  | flush reply =>
    cases run
    rfl
  | decode compressedData ptsUs dtsUs reply =>
    cases run
    intro send same
    by_cases reaches : reachesCodec s.impl compressedData reply = true
    · rw [if_pos reaches, preparePacket_eq] at same
      obtain ⟨detected, _, run, _, _, _, _, sent⟩ := decode_sent avutil reaches ptsUs dtsUs
      obtain ⟨again, _, rerun, _, _, _, _, resent⟩ :=
        @decode_sent avutil s.impl compressedData { reply with send } reaches ptsUs dtsUs
      obtain rfl : detected = again := Except.ok.inj (run.symm.trans rerun)
      rw [sent, resent, sendPacket_asks (same _ (List.mem_singleton_self _))]
    · exact decode_unsent avutil (by simpa using reaches) ptsUs dtsUs send

theorem makePacket_own (compressedData : List UInt8) (ptsUs dtsUs : Int) :
    Sent.Own ⟨ptsUs, dtsUs, makePacket compressedData ptsUs dtsUs⟩ := by
  constructor
  · by_cases missing : ptsUs = -1 <;> simp [makePacket, AVPacket.stamp, stampOf, missing]
  · by_cases missing : dtsUs = -1 <;> simp [makePacket, AVPacket.decodeStamp, stampOf, missing]

theorem videoPacketStep_own {s s' : VideoPackets} {c : VideoCall} {new : List Sent}
    (run : videoPacketStep avutil s c = some (s', new)) : ∀ sent ∈ new, sent.Own := by
  cases c with
  | flush reply => cases run; simp
  | decode compressedData ptsUs dtsUs reply =>
    cases run
    split
    · rw [preparePacket_eq]
      simpa using makePacket_own compressedData ptsUs dtsUs
    · simp

inductive AudioCall
  | decode (compressedData : List UInt8) (ptsUs dtsUs : Int) (send : AVPacket → Audio.SendReply)
  | flush (released : List Audio.ReceiveResult) (remainder : Audio.Remainder)

/-- The audio decoder sends the packet that it keeps, with what the call puts into it. -/
def audioPacketStep (impl : Audio.Impl) : AudioCall → Option (Audio.Impl × List Sent)
  | .decode compressedData ptsUs dtsUs send =>
    some ((Audio.decode impl compressedData ptsUs dtsUs send).2,
      [⟨ptsUs, dtsUs, Audio.setPacket impl.packet compressedData ptsUs dtsUs⟩])
  | .flush released remainder => some ((Audio.flush impl released remainder).2, [])

def AudioCall.Asks (impl : Audio.Impl) : AudioCall → List AVPacket → Prop
  | .decode compressedData ptsUs dtsUs reply, packets =>
    ∀ send, (∀ packet ∈ packets, send packet = reply packet) →
      Audio.decode impl compressedData ptsUs dtsUs send = Audio.decode impl compressedData ptsUs dtsUs reply
  | .flush .., packets => packets = []

theorem audioPacketStep_asks {impl impl' : Audio.Impl} {c : AudioCall} {new : List Sent}
    (run : audioPacketStep impl c = some (impl', new)) : c.Asks impl (new.map (·.packet)) := by
  cases c with
  | flush released remainder =>
    cases run
    rfl
  | decode compressedData ptsUs dtsUs reply =>
    cases run
    intro send same
    have answer := same _ (List.mem_singleton_self _)
    simp only [Audio.decode, answer]

/-- However the call ends, its packet stays for the next one. -/
theorem audioDecode_packet (impl : Audio.Impl) (compressedData : List UInt8) (ptsUs dtsUs : Int)
    (send : AVPacket → Audio.SendReply) :
    (Audio.decode impl compressedData ptsUs dtsUs send).2.packet =
      Audio.setPacket impl.packet compressedData ptsUs dtsUs := by
  unfold Audio.decode
  dsimp only
  split <;> rfl

theorem setPacket_own (packet : AVPacket) (compressedData : List UInt8) (ptsUs dtsUs : Int) :
    Sent.Own ⟨ptsUs, dtsUs, Audio.setPacket packet compressedData ptsUs dtsUs⟩ ↔
      (ptsUs = -1 → packet.stamp = Audio.noPtsValue) ∧ (dtsUs = -1 → packet.decodeStamp = Audio.noPtsValue) := by
  constructor
  · rintro ⟨pts, dts⟩
    refine ⟨fun missing => ?_, fun missing => ?_⟩
    · simpa [Audio.setPacket, AVPacket.stamp, stampOf, missing] using pts
    · simpa [Audio.setPacket, AVPacket.decodeStamp, stampOf, missing] using dts
  · rintro ⟨pts, dts⟩
    constructor
    · by_cases missing : ptsUs = -1
      · simpa [Audio.setPacket, AVPacket.stamp, stampOf, missing] using pts missing
      · simp [Audio.setPacket, AVPacket.stamp, stampOf, missing]
    · by_cases missing : dtsUs = -1
      · simpa [Audio.setPacket, AVPacket.decodeStamp, stampOf, missing] using dts missing
      · simp [Audio.setPacket, AVPacket.decodeStamp, stampOf, missing]

/-- A call that leaves a timestamp out does not come directly behind one that gave it. -/
structure Follows (before now : Sent) : Prop where
  pts : now.ptsUs = -1 → stampOf before.ptsUs = Audio.noPtsValue
  dts : now.dtsUs = -1 → stampOf before.dtsUs = Audio.noPtsValue

/-- The packet that the audio decoder keeps is the last one sent, and the calls
so far have had their own timestamps exactly when no omission followed a timestamp. -/
structure Kept (past : List Sent) (impl : Audio.Impl) : Prop where
  packet : impl.packet = (past.getLast?.map Sent.packet).getD { data := [] }
  own : (∀ sent ∈ past, sent.Own) ↔ past.IsChain Follows

theorem Kept.next {past new : List Sent} {impl impl' : Audio.Impl} {c : AudioCall} (kept : Kept past impl)
    (run : audioPacketStep impl c = some (impl', new)) : Kept (past ++ new) impl' := by
  cases c with
  | flush released remainder =>
    cases run
    rw [List.append_nil]
    exact ⟨kept.packet, kept.own⟩
  | decode compressedData ptsUs dtsUs send =>
    cases run
    refine ⟨by simp [audioDecode_packet], ?_⟩
    have forall_snoc (p : Sent → Prop) (sent : Sent) :
        (∀ x ∈ past ++ [sent], p x) ↔ (∀ x ∈ past, p x) ∧ p sent := by
      simp [or_imp, forall_and]
    rw [forall_snoc, List.isChain_append, kept.own, setPacket_own]
    refine and_congr_right fun chained => ?_
    cases last : past.getLast? with
    | none =>
      have fresh : impl.packet = { data := [] } := by simpa [last] using kept.packet
      simp [fresh, AVPacket.stamp, AVPacket.decodeStamp]
    | some before =>
      have previous : impl.packet = before.packet := by simpa [last] using kept.packet
      have own := kept.own.mpr chained before (List.mem_of_getLast? last)
      rw [previous, own.pts, own.dts]
      constructor
      · rintro ⟨pts, dts⟩
        simpa using ⟨pts, dts⟩
      · rintro ⟨_, follows⟩
        have linked : Follows before _ := follows before rfl _ rfl
        exact ⟨linked.pts, linked.dts⟩

/-- The packets that a step logs are the only ones that its call asks the codec about. -/
structure LogsAsked (avutil : AvUtil) : Prop where
  video : ∀ s c s' new, videoPacketStep avutil s c = some (s', new) → c.Asks avutil s.impl (new.map (·.packet))
  audio : ∀ impl c impl' new, audioPacketStep impl c = some (impl', new) → c.Asks impl (new.map (·.packet))

/-- In every pair of runs of the two decoders, the packets carry the timestamps of
their own calls exactly when no audio call that leaves a timestamp out comes
directly behind one that gave it. -/
theorem ownTimestamps_iff {audioHint : String} {audioReply : ConstructionReply} {videoImpl : DetectingImpl}
    {audioImpl audioEnd : Audio.Impl} {videoEnd : VideoPackets} {video audio : List Sent}
    (audioAccepted : Audio.construct audioHint audioReply = .ok audioImpl)
    (videoRun : Reach (videoPacketStep avutil) anyStep { impl := videoImpl } video videoEnd)
    (audioRun : Reach audioPacketStep anyStep audioImpl audio audioEnd) :
    LogsAsked avutil ∧ (((∀ sent ∈ video, sent.Own) ∧ ∀ sent ∈ audio, sent.Own) ↔ audio.IsChain Follows) := by
  have videoOwn : ∀ sent ∈ video, sent.Own :=
    (videoRun.observed (fun _ => True) Sent.Own trivial fun _ _ run => ⟨trivial, videoPacketStep_own run⟩).2
  have kept : Kept audio audioEnd := audioRun.traced Kept ⟨by simp [Audio.construct_ok audioAccepted], by simp⟩
    fun kept _ run => kept.next run
  exact ⟨⟨fun _ _ _ _ => videoPacketStep_asks, fun _ _ _ _ => audioPacketStep_asks⟩,
    fun own => kept.own.mp own.2, fun chained => ⟨videoOwn, kept.own.mpr chained⟩⟩

/-- Three packets, of which the last two have no timestamps, sent to a codec that takes them. -/
theorem threePackets_run :
    ∃ audio audioEnd, Reach audioPacketStep anyStep { results := [] } audio audioEnd ∧
      audio.map (fun sent => (sent.ptsUs, sent.packet.stamp)) = [(100, 100), (-1, 100), (-1, 100)] := by
  obtain ⟨audio, audioEnd, run, stamps⟩ := reach_of_exec audioPacketStep anyStep { results := [] }
    [.decode [0] 100 (-1) fun _ => ⟨none, []⟩, .decode [1] (-1) (-1) fun _ => ⟨none, []⟩,
      .decode [2] (-1) (-1) fun _ => ⟨none, []⟩]
    (fun r => r.1.map (fun sent => (sent.ptsUs, sent.packet.stamp)) == [(100, 100), (-1, 100), (-1, 100)])
    (by decide)
  exact ⟨audio, audioEnd, run, by simpa using stamps⟩

/-- The two audio packets without timestamps carry that of the first one. -/
theorem not_ownTimestamps_reusedPacket :
    Audio.construct "aac" ⟨everythingOpens, true, true⟩ = .ok { results := [] } ∧
      ∃ audio audioEnd, Reach audioPacketStep anyStep { results := [] } audio audioEnd ∧
        ¬ ∀ sent ∈ audio, sent.Own := by
  obtain ⟨audio, audioEnd, run, stamps⟩ := threePackets_run
  refine ⟨openAudio_accepted, audio, audioEnd, run, fun own => ?_⟩
  have member : ((-1 : Int), (100 : Int)) ∈ audio.map fun sent => (sent.ptsUs, sent.packet.stamp) := by
    simp [stamps]
  obtain ⟨sent, among, reused⟩ := List.mem_map.mp member
  obtain ⟨missing, stale⟩ := Prod.mk.inj reused
  have stamp := (own sent among).pts
  rw [stale, missing] at stamp
  revert stamp
  decide

/-- Two audio packets of which both have their timestamp, and a video packet that has none. -/
theorem ownTimestamps_explicit :
    ∃ video videoEnd audio audioEnd, Reach (videoPacketStep .plain) anyStep { impl := openVideo } video videoEnd ∧
      Reach audioPacketStep anyStep { results := [] } audio audioEnd ∧ video.length = 1 ∧ audio.length = 2 ∧
      (((∀ sent ∈ video, sent.Own) ∧ ∀ sent ∈ audio, sent.Own) ↔ audio.IsChain Follows) := by
  obtain ⟨video, videoEnd, videoRun, one⟩ := reach_of_exec (videoPacketStep .plain) anyStep { impl := openVideo }
    [.decode [0] (-1) (-1) ⟨true, none, everythingOpens, true, fun _ => ⟨none, []⟩⟩]
    (fun r => r.1.length == 1) (by decide)
  obtain ⟨audio, audioEnd, audioRun, two⟩ := reach_of_exec audioPacketStep anyStep { results := [] }
    [.decode [0] 0 0 fun _ => ⟨none, []⟩, .decode [1] 20000 20000 fun _ => ⟨none, []⟩]
    (fun r => r.1.length == 2) (by decide)
  exact ⟨video, videoEnd, audio, audioEnd, videoRun, audioRun, by simpa using one, by simpa using two,
    (ownTimestamps_iff openAudio_accepted videoRun audioRun).2⟩

end Iptv.Decoder
