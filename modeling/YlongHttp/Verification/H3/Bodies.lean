import YlongHttp.Verification.Client.Contents
import YlongHttp.Verification.H3.MessageOrder

/-! # The bodies of HTTP/3 responses

What the channel of a request delivers behind the HEADERS of the response: DATA, trailing HEADERS
if there are any, and that the stream has finished. -/

namespace YlongHttp.H3

open List

variable {frame trailer : Frame} {frames : List Frame} {first run : ReaderRun Frame RespMessage}

/-! ## The messages of a body -/

def Frame.data? (frame : Frame) : Option Bytes :=
  match frame.payload with
  | .data data => some data
  | _ => none

theorem Frame.payload_of_data? {data : Bytes} (h : frame.data? = some data) :
    frame.payload = .data data := by
  rw [Frame.data?] at h
  split at h
  · next hpay =>
      cases h
      exact hpay
  · cases h

theorem Frame.data?_of_isData (h : frame.isData) : ∃ data, frame.data? = some data := by
  rw [Frame.isData] at h
  cases hpay : frame.payload with
  | data data => exact ⟨data, by rw [Frame.data?, hpay]⟩
  | _ => simp [hpay] at h

def RespMessage.piece : RespMessage → Piece
  | .output frame => { octets := frame.data?.getD [], last := false }
  | .outputExit _ => { octets := [], last := true }

def RespMessage.IsPlain : RespMessage → Prop
  | .output frame => frame.isData
  | .outputExit e => e = .streamFinished

def bodyMessages (frames : List Frame) (trailer : Option Frame) : List RespMessage :=
  frames.map .output ++ (trailer.map .output).toList ++ [.outputExit .streamFinished]

/-! ## The reader -/

theorem endsFrame_endRead : EndsFrame false Http3.endRead := by
  intro self dataLen
  by_cases hzero : dataLen = 0
  · simp [Http3.endRead, hzero]
  · simp [Http3.endRead, hzero]

theorem lawful_reader :
    Http3.reader.Lawful RespMessage.IsPlain RespMessage.piece
      (Holding Frame.data? fun _ => false) where
  start := .idle false
  closed := Holding.isClosed
  pending _ _ := rfl
  idle := by
    intro io ended buf h
    rw [h.eq_idle rfl]
    rfl
  remaining := by
    intro io rest ended buf h hne _
    cases h with
    | idle => exact absurd rfl hne
    | held hdata hdrop hrest =>
      obtain ⟨io', hread, hat⟩ := readData_holding (fun _ => false)
        { offset := _, remain := some _, isClosed := false } buf endsFrame_endRead hdata
        hdrop rfl
      refine ⟨io', ?_, hat⟩
      rw [if_neg fun h => hne h.1] at hread
      simp only [Http3.reader, Http3.readRemainingData, Frame.payload_of_data? hdata, hdrop]
      exact hread
  message := by
    intro io message buf h hplain _
    rw [h.eq_idle rfl]
    cases message with
    | output frame =>
      obtain ⟨octets, hdata⟩ := Frame.data?_of_isData hplain
      have hoct : (RespMessage.output frame).piece.octets = octets := by
        rw [RespMessage.piece, hdata]
        rfl
      obtain ⟨io', hread, hat⟩ := readData_holding (fun _ => false)
        { offset := 0, remain := none, isClosed := false } buf endsFrame_endRead hdata
        (@drop_zero _ octets) rfl
      rw [hoct]
      refine ⟨io', ?_, hat⟩
      simp only [Http3.reader, Http3.matchChannelMessage, Frame.payload_of_data? hdata]
      exact hread
    | outputExit e =>
      have hfin : e = .streamFinished := hplain
      subst hfin
      refine ⟨{ offset := 0, remain := none, isClosed := true }, ?_, ?_⟩
      · simp [Http3.reader, Http3.matchChannelMessage, RespMessage.piece]
      · rw [RespMessage.piece, drop_nil]
        exact .idle true

/-! ## Bodies without trailers -/

theorem isPlain_bodyMessages (hdata : ∀ frame ∈ frames, frame.isData) :
    ∀ message ∈ bodyMessages frames none, message.IsPlain := by
  intro message hmem
  rw [bodyMessages, Option.map_none, Option.toList_none, append_nil, mem_append] at hmem
  rcases hmem with hmem | hmem
  · obtain ⟨frame, hframe, rfl⟩ := mem_map.mp hmem
    exact hdata frame hframe
  · rw [mem_singleton.mp hmem]
    rfl

theorem oneEnd_bodyMessages (frames : List Frame) :
    OneEnd false ((bodyMessages frames none).map RespMessage.piece) := by
  induction frames with
  | nil => exact .cons (.nil true)
  | cons frame frames ih => exact .cons ih

theorem any_last_bodyMessages (frames : List Frame) (trailer : Option Frame) :
    ((bodyMessages frames trailer).map RespMessage.piece).any (·.last) = true := by
  simp [bodyMessages, RespMessage.piece]

def content (frames : List Frame) : Bytes := frames.flatMap fun frame => frame.data?.getD []

theorem payload_bodyMessages (frames : List Frame) :
    payload ((bodyMessages frames none).map RespMessage.piece) = content frames := by
  induction frames with
  | nil => rfl
  | cons frame frames ih =>
    rw [content, flatMap_cons, ← content, ← ih]
    rfl

/-- The messages `all` are read as the body `whole`: through the reader of the stream, and through
the bodies with a matching Content-Length and without one. -/
structure ReadsBody (all : List RespMessage) (whole : Bytes) : Prop where
  delivered : ∀ {answers run}, Open answers → messages answers = all →
    Reads Http3.reader (.start answers) run → run.delivered <+: whole
  /-- At the end nothing is to come, and the stream may be closed. -/
  ending : ∀ {answers run}, Open answers → messages answers = all →
    Reads Http3.reader (.start answers) run → ∀ (speed capacity), 0 < capacity →
    (run.poll Http3.reader speed capacity).IsEnd →
      run.delivered = whole ∧ (run.poll Http3.reader speed capacity).io.isStreamClosable = true
  complete : ∀ {answers capacities}, Open answers → messages answers = all →
    (∀ capacity ∈ capacities, 0 < capacity) → answers.length + whole.length ≤ capacities.length →
      (ReaderRun.readAll Http3.reader capacities (.start answers)).delivered = whole
  text : ∀ {intercept : Interceptor}, (∀ octets, intercept octets = .ok ()) →
    ContentRead (Text.data Http3.reader intercept .none) (.new whole.length .new) all whole
  untilClose : ∀ {intercept : Interceptor}, (∀ octets, intercept octets = .ok ()) →
    ContentRead (UntilClose.data Http3.reader intercept .none) (.new .new) all whole

theorem readsBody_of_data (hdata : ∀ frame ∈ frames, frame.isData) :
    ReadsBody (bodyMessages frames none) (content frames) := by
  have hplain := isPlain_bodyMessages hdata
  have hone := oneEnd_bodyMessages frames
  have hlast := any_last_bodyMessages frames none
  have hexact := lawful_reader.readExactly hplain hone
  rw [← payload_bodyMessages]
  refine ⟨hexact.delivered, ?_, hexact.whole, ?_, ?_⟩
  · intro answers run hopen hall hreads speed capacity hcap hend
    refine ⟨(hexact.ending hopen hall hreads speed capacity hcap hend).2, ?_⟩
    obtain ⟨seen, rest, h⟩ := hreads.holds lawful_reader hopen (hall ▸ hplain)
    have hok : ¬(run.poll Http3.reader speed capacity).IsError := by
      rintro ⟨e, he⟩
      rw [hend.1] at he
      cases he
    obtain ⟨taken, rest', hnext, hended⟩ := h.read lawful_reader (hall ▸ hplain) speed hcap hok
    obtain ⟨rfl, hseen⟩ := hended hend
    have hat := hnext.at_rest
    rw [hseen] at hat
    exact lawful_reader.closed hat
  · intro intercept hpass
    exact (text_law hpass).contentRead lawful_reader hplain hone hlast rfl
  · intro intercept hpass
    exact (untilClose_law hpass).contentRead lawful_reader hplain hone hlast rfl

/-! ## Trailers -/

variable (all : List RespMessage)

def spaced : List (Poll (Option RespMessage)) :=
  all.flatMap fun message => [.ready (some message), .pending]

theorem open_spaced : Open (spaced all) := by
  intro hmem
  obtain ⟨message, -, hanswer⟩ := mem_flatMap.mp hmem
  simp at hanswer

theorem messages_spaced : messages (spaced all) = all := by
  induction all with
  | nil => rfl
  | cons message all ih => exact congrArg (message :: ·) ih

/-- The reader holds nothing, and the messages `all` are to come. -/
structure Awaits (run : ReaderRun Frame RespMessage) (all : List RespMessage) : Prop where
  io : run.io = .new
  answers : run.answers = spaced all

theorem not_isError {polled : Polled Frame RespMessage} {result : IoPoll}
    (h : polled.result = result) (hres : ∀ e, result ≠ .ready (.error e)) : ¬polled.IsError := by
  rintro ⟨e, he⟩
  exact hres e (h.symm.trans he)

theorem reads_pending (answers : List (Poll (Option RespMessage)))
    (h : Reads Http3.reader first run) (hio : run.io = .new)
    (hanswers : run.answers = .pending :: answers) :
    ∃ run', Reads Http3.reader first run' ∧ run'.io = .new ∧ run'.answers = answers := by
  have hpoll : ReaderRun.poll Http3.reader .none 1 run =
      { result := .pending, io := .new, buf := .new 1, answers } := by
    simp [ReaderRun.poll, hio, hanswers, TextIo.pollRead, SpeedController.none, ReadBuf.remaining,
      ReadBuf.new, TextIo.new, TextIo.readLoop, TextIo.readRemaining, TextIo.readMessage,
      Http3.reader, Http3.readRemainingData, Http3.matchChannelMessage, TextIo.finish]
  have hnext := h.read .none Nat.one_pos (by rw [hpoll]; exact not_isError rfl (by simp))
  rw [hpoll] at hnext
  exact ⟨_, hnext, rfl, rfl⟩

theorem reads_data {all : List RespMessage} (h : Reads Http3.reader first run)
    (hframe : frame.isData) (hrun : Awaits run (.output frame :: all)) :
    ∃ run', Reads Http3.reader first run' ∧ Awaits run' all := by
  obtain ⟨octets, hdata⟩ := Frame.data?_of_isData hframe
  have hpay := Frame.payload_of_data? hdata
  obtain ⟨io, answers, delivered⟩ := run
  obtain ⟨rfl, rfl⟩ := hrun
  cases octets with
  | nil =>
    -- an empty frame is passed over
    have hpoll : ReaderRun.poll Http3.reader .none 1 ⟨.new, spaced (.output frame :: all), delivered⟩ =
        { result := .pending, io := .new, buf := .new 1, answers := spaced all } := by
      simp [ReaderRun.poll, TextIo.pollRead, SpeedController.none, ReadBuf.remaining, ReadBuf.new,
        TextIo.new, spaced, TextIo.readLoop, TextIo.readRemaining, TextIo.readMessage,
        Http3.reader, Http3.readRemainingData, Http3.matchChannelMessage, hpay,
        TextIo.readData, Http3.endRead, ReadBuf.appendSlice, TextIo.finish]
    refine ⟨_, h.read .none Nat.one_pos ?_, ?_, ?_⟩
    · rw [hpoll]
      exact not_isError rfl (by simp)
    · rw [hpoll]
      rfl
    · rw [hpoll]
      rfl
  | cons b octets =>
    have hpoll : ReaderRun.poll Http3.reader .none (b :: octets).length
        ⟨.new, spaced (.output frame :: all), delivered⟩ =
          { result := .ready (.ok ()), io := .new
            buf := { capacity := (b :: octets).length, filled := b :: octets }
            answers := .pending :: spaced all } := by
      simp [ReaderRun.poll, TextIo.pollRead, SpeedController.none, ReadBuf.remaining, ReadBuf.new,
        TextIo.new, spaced, TextIo.readLoop, TextIo.readRemaining, TextIo.readMessage,
        Http3.reader, Http3.readRemainingData, Http3.matchChannelMessage, hpay,
        TextIo.readData, Http3.endRead, ReadBuf.appendSlice, TextIo.finish, TextIo.ready]
    have hfirst := h.read .none (show 0 < (b :: octets).length from Nat.succ_pos _)
      (by rw [hpoll]; exact not_isError rfl (by simp))
    rw [hpoll] at hfirst
    obtain ⟨run', hsec, hio, hanswers⟩ := reads_pending (spaced all) hfirst rfl rfl
    exact ⟨run', hsec, hio, hanswers⟩

theorem reads_frames (hdata : ∀ frame ∈ frames, frame.isData)
    (hreads : Reads Http3.reader first run) (hrun : Awaits run (bodyMessages frames (some trailer)))
    : ∃ run', Reads Http3.reader first run' ∧ Awaits run' (bodyMessages [] (some trailer)) := by
  induction frames generalizing run with
  | nil => exact ⟨run, hreads, hrun⟩
  | cons frame frames ih =>
    obtain ⟨run', hreads', hrun'⟩ := reads_data hreads (hdata frame (.head _)) hrun
    exact ih (fun f hf => hdata f (.tail _ hf)) hreads' hrun'

theorem not_readsBody_of_trailer (hdata : ∀ frame ∈ frames, frame.isData)
    (htrailer : trailer.isHeaders) (whole : Bytes) :
    ¬ReadsBody (bodyMessages frames (some trailer)) whole := by
  intro h
  obtain ⟨⟨io, answers, delivered⟩, hreads, rfl, rfl⟩ :=
    reads_frames hdata (.refl : Reads _ (.start (spaced (bodyMessages frames (some trailer)))) _)
      ⟨rfl, rfl⟩
  have hpoll : ReaderRun.poll Http3.reader .none 1
      ⟨.new, spaced (bodyMessages [] (some trailer)), delivered⟩ =
        { result := .ready (.ok ()), io := { offset := 0, remain := some trailer, isClosed := false }
          buf := .new 1, answers := .pending :: spaced [.outputExit .streamFinished] } := by
    rw [Frame.isHeaders] at htrailer
    split at htrailer
    · next hpay =>
        simp [ReaderRun.poll, TextIo.pollRead, SpeedController.none, ReadBuf.remaining, ReadBuf.new,
          TextIo.new, spaced, bodyMessages, TextIo.readLoop, TextIo.readRemaining,
          TextIo.readMessage, Http3.reader, Http3.readRemainingData, Http3.matchChannelMessage,
          hpay, TextIo.finish, TextIo.ready]
    · cases htrailer
  have hclosable := (h.ending (open_spaced _) (messages_spaced _) hreads .none 1
    Nat.one_pos (by rw [hpoll]; exact ⟨rfl, rfl⟩)).2
  rw [hpoll] at hclosable
  cases hclosable

/-- A body is read as it should be if and only if no trailers follow it. -/
theorem body_read_exactly {frames : List Frame} (hdata : ∀ frame ∈ frames, frame.isData)
    {trailer : Option Frame} (htrailer : ∀ frame ∈ trailer, frame.isHeaders) :
    ReadsBody (bodyMessages frames trailer) (content frames) ↔ trailer = none := by
  cases trailer with
  | none => exact iff_of_true (readsBody_of_data hdata) rfl
  | some trailer =>
    exact iff_of_false (not_readsBody_of_trailer hdata (htrailer trailer rfl) _) (by simp)

def someData (data : Bytes) : Frame := { ty := dataFrameType, payload := .data data }

def someTrailer : Frame := { ty := headersFrameType, payload := .headers .new none }

theorem two_frames_read_exactly : ReadsBody (bodyMessages [someData [1], someData []] none) [1] :=
  (@body_read_exactly [someData [1], someData []] (by decide) none (by simp)).mpr rfl

/-- One octet, and trailers: with Content-Length 1 the body fails at its end. -/
theorem trailer_incomplete :
    ¬ReadsBody (bodyMessages [someData [1]] (some someTrailer)) [1] ∧
      (BodyRun.poll (Text.data Http3.reader (fun _ => .ok ()) .none)
        (BodyRun.readAll (Text.data Http3.reader (fun _ => .ok ()) .none) [8]
          { body := .new 1 .new, answers := (bodyMessages [someData [1]] (some someTrailer)).map
              fun message => .ready (some message), delivered := [] }) 8).result =
        .ready (.error (.bodyDecode "Response body incomplete")) :=
  ⟨not_readsBody_of_trailer (by decide) rfl [1], by decide⟩

end YlongHttp.H3
