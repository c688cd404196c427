import YlongHttp.Model.H2.Encoder
import YlongHttp.Verification.Hpack.Conformance
import YlongHttp.Verification.Hpack.RoundTrip

/-! # HPACK and SETTINGS_HEADER_TABLE_SIZE

The client acknowledges every value of the server, but its encoder never changes its table
and never sends a size update. The server can read its blocks as long as no value is below
the size of that table. The decoder takes every size update, so that the value which the
client announces does not matter to it. -/

namespace YlongHttp

open List Option
open Rfc7541 (Context entrySize)

/-! ## What the reference reads of an encoded block -/

variable {c c' : Context}

variable {table : DynamicTable} {limit room : ℕ}

theorem encodeField_read (limit : ℕ) (hrep : Represents table c) (useHuffman : Bool) (h : Header)
    (v : Bytes) (hfits : table.Fits) (hmax : table.maxSize < usizeBound) (hname : h.len < 2 ^ 62)
    (hval : v.length < 2 ^ 62) :
    ∃ repr c', (∀ rest, Rfc7541.representation
        ((encodeField table useHuffman h v).1.octets ++ rest) = some (repr, rest)) ∧
      c.apply limit repr = some (c', some (entryOf (sentField table (h, v)))) ∧
      Represents (encodeField table useHuffman h v).2 c' ∧ ∀ n, repr ≠ .sizeUpdate n := by
  obtain ⟨repr, hdec, hspells⟩ := encodeField_spells table useHuffman h v hfits hmax hname hval
  have hread : ∀ rest, Rfc7541.representation
      ((encodeField table useHuffman h v).1.octets ++ rest) = some (repr, rest) := by
    intro rest
    rw [← decode_representation, hdec]
    rfl
  cases hspells with
  | @indexed i found same =>
    have hget := hrep.lookup_field i
    rw [found, map_some] at hget
    obtain ⟨hent, -⟩ := filter_eq_some_iff.mp hget.symm
    refine ⟨_, c, hread, ?_, ?_, by simp⟩
    · rw [Context.apply, hent, map_some]
    · rw [same]
      exact hrep
  | @named i found sent added =>
    have hget := hrep.lookup_name i
    rw [found, map_some] at hget
    refine ⟨_, c.insert (h.intoString, v), hread, ?_, ?_, by simp⟩
    · rw [Context.apply, Context.nameOf, ← hget, map_some, sent]
      rfl
    · rw [added]
      exact hrep.insert h v
  | @literal name other sent added =>
    subst other
    refine ⟨_, c.insert (name, v), hread, ?_, ?_, by simp⟩
    · rw [Context.apply, Context.nameOf, map_some, sent]
      rfl
    · rw [added]
      exact hrep.insert _ v

theorem blockLoop_encodeFields (limit : ℕ) (useHuffman : Bool) (fields : List Field)
    (hrep : Represents table c) (hfits : table.Fits) (hmax : table.maxSize < usizeBound)
    (hsize : ∀ f ∈ fields, f.size < 2 ^ 62) (fuel : ℕ)
    (hfuel : (encodeFields useHuffman table fields).1.length < fuel) :
    ∃ c', c.blockLoop limit fuel (encodeFields useHuffman table fields).1 =
        some (c', (sentFields useHuffman table fields).map entryOf) ∧
      Represents (encodeFields useHuffman table fields).2 c' := by
  induction fields generalizing table c fuel with
  | nil =>
    obtain ⟨fuel, rfl⟩ : ∃ k, fuel = k + 1 := ⟨fuel - 1, by omega⟩
    exact ⟨c, rfl, hrep⟩
  | cons f rest ih =>
    obtain ⟨h, v⟩ := f
    have hf : h.len + v.length + 32 < 2 ^ 62 := hsize (h, v) (.head _)
    obtain ⟨repr, c₁, hread, happly, hrep₁, -⟩ :=
      encodeField_read limit hrep useHuffman h v hfits hmax (by omega) (by omega)
    obtain ⟨hfits₁, hmax₁⟩ := encodeField_fits table useHuffman h v hfits
    -- a representation takes an octet, so that the fuel suffices for the others
    have hlt := reprDecodeState_consumes _ _ _ _
      (representation_read (hread (encodeFields useHuffman
        (encodeField table useHuffman h v).2 rest).1))
    simp only [encodeFields, length_append] at hfuel hlt ⊢
    obtain ⟨fuel, rfl⟩ : ∃ k, fuel = k + 1 := ⟨fuel - 1, by omega⟩
    obtain ⟨c', hloop, hrep'⟩ := ih hrep₁ hfits₁ (by rw [hmax₁]; exact hmax)
      (fun g hg => hsize g (.tail _ hg)) fuel (by omega)
    refine ⟨c', ?_, hrep'⟩
    have hne : (encodeField table useHuffman h v).1.octets ++
        (encodeFields useHuffman (encodeField table useHuffman h v).2 rest).1 ≠ [] := by
      intro hnil
      have hlen := congrArg length hnil
      simp only [length_append, length_nil] at hlen
      omega
    rw [Context.blockLoop, if_neg hne, hread]
    simp only [bind_some, happly, hloop, map_some, toList_some, sentFields,
      map_cons, singleton_append]

theorem representation_encodeFields (useHuffman : Bool) (fields : List Field)
    (hrep : Represents table c) (hfits : table.Fits) (hmax : table.maxSize < usizeBound)
    (hsize : ∀ f ∈ fields, f.size < 2 ^ 62) (n : ℕ) (rest : Bytes) :
    Rfc7541.representation (encodeFields useHuffman table fields).1 ≠
      some (.sizeUpdate n, rest) := by
  cases fields with
  | nil => simp [encodeFields, Rfc7541.representation]
  | cons f fields =>
    obtain ⟨h, v⟩ := f
    have hf : h.len + v.length + 32 < 2 ^ 62 := hsize (h, v) (.head _)
    obtain ⟨repr, c₁, hread, -, -, hne⟩ :=
      encodeField_read 0 hrep useHuffman h v hfits hmax (by omega) (by omega)
    simp only [encodeFields, hread]
    intro heq
    exact hne n (Prod.mk.inj (some.inj heq)).1

theorem sentFields_entries (useHuffman : Bool) (table : DynamicTable) (fields : List Field) :
    (sentFields useHuffman table fields).map entryOf = fields.map entryOf ↔
      NoNameOnly useHuffman table fields := by
  rw [← sentFields_eq_iff]
  constructor
  · intro h
    induction fields generalizing table with
    | nil => rfl
    | cons f rest ih =>
      simp only [sentFields, map_cons, cons.injEq] at h ⊢
      refine ⟨Prod.ext (sentField_name table f) (Prod.mk.inj h.1).2, ih _ h.2⟩
  · intro h
    rw [h]

/-! ## Connections -/

/-- What the client writes: the acknowledgement of a SETTINGS frame, or the header block of a
request, in calls of `encode` with these buffers. -/
inductive Event where
  | settings (settings : List Setting)
  | request (parts : Parts) (caps : ℕ → ℕ)

variable (settings : List Setting)

/-- The acknowledgement that `recv_settings_frame` sends. -/
def settingsAck : Frame :=
  { id := 0, flags := { bits := 0x1 }, payload := .settings settings }

/-- The server: its table, the value that the client has acknowledged, and whether that is
below the size of the table, so that a size update has to come first. -/
structure Peer where
  context : Context
  limit : ℕ
  owed : Bool

def Peer.new : Peer where
  context := .new 4096
  limit := 4096
  owed := false

def Peer.applySetting (p : Peer) : Setting → Peer
  | .headerTableSize size =>
    { p with limit := size.toNat, owed := p.owed || size.toNat < p.context.maxSize }
  | _ => p

/-- What the server reads of a block. -/
noncomputable def Peer.read (p : Peer) (bytes : Bytes) : Option (Peer × List (Bytes × Bytes)) :=
  open Classical in
  if p.owed = true ∧ ∀ n rest, Rfc7541.representation bytes ≠ some (.sizeUpdate n, rest) then none
  else
    (p.context.blockLoop p.limit (bytes.length + 1) bytes).map fun (context, fields) =>
      ({ p with context, owed := false }, fields)

/-- Every block is written, in finitely many calls whatever the buffers, and the server
reads the fields of its request. -/
inductive Decodable : FrameEncoder → Peer → List Event → Prop
  | nil (e : FrameEncoder) (p : Peer) : Decodable e p []
  | settings {e : FrameEncoder} {p : Peer} {settings : List Setting} {events : List Event}
      (later : Decodable (updateSettings e (settingsAck settings)).1
        (settings.foldl Peer.applySetting p) events) :
      Decodable e p (.settings settings :: events)
  | request {e : FrameEncoder} {p p' : Peer} {hpack : HpackEncoder} {parts : Parts}
      {caps : ℕ → ℕ} {k : ℕ} {fragments : List Bytes} {events : List Event}
      (encoded : (e.hpackEncoder.setParts parts).encodeAll caps k = (fragments, hpack))
      (finished : hpack.isFinished = true)
      (read : p.read fragments.flatten = some (p', parts.fields.map entryOf))
      (later : Decodable { e with hpackEncoder := hpack } p' events) :
      Decodable e p (.request parts caps :: events)

def Setting.lowers (table : DynamicTable) : Setting → Bool
  | .headerTableSize size => size.toNat < table.maxSize
  | _ => false

def Event.isRequest : Event → Bool
  | .settings _ => false
  | .request _ _ => true

/-- No request follows a value below the size of the table, and no field has just its name
in the dynamic table when it is encoded. -/
def Unlowered (useHuffman : Bool) : DynamicTable → List Event → Prop
  | _, [] => True
  | table, .settings settings :: events =>
    if settings.any (Setting.lowers table) then ∀ event ∈ events, event.isRequest = false
    else Unlowered useHuffman table events
  | table, .request parts _ :: events =>
    NoNameOnly useHuffman table parts.fields ∧
      Unlowered useHuffman (encodeFields useHuffman table parts.fields).2 events

theorem applySettings_hpackEncoder (e : FrameEncoder) :
    (settings.foldl applySetting e).hpackEncoder = e.hpackEncoder := by
  induction settings generalizing e with
  | nil => rfl
  | cons setting settings ih =>
    rw [foldl_cons, ih]
    cases setting <;> rfl

theorem updateSettings_hpackEncoder (e : FrameEncoder) (settings : List Setting) :
    (updateSettings e (settingsAck settings)).1.hpackEncoder = e.hpackEncoder := by
  have hack : (settingsAck settings).flags.isAck = true := by
    simp only [settingsAck]
    decide
  have hupd : updateSettings e (settingsAck settings) =
      (settings.foldl applySetting e, .ack) := if_pos hack
  rw [hupd]
  exact applySettings_hpackEncoder settings e

theorem Peer.applySettings (p : Peer) (hrep : Represents table p.context) :
    (settings.foldl Peer.applySetting p).context = p.context ∧
      (settings.foldl Peer.applySetting p).owed =
        (p.owed || settings.any (Setting.lowers table)) := by
  induction settings generalizing p with
  | nil => simp
  | cons setting settings ih =>
    cases setting with
    | headerTableSize size =>
      have hcontext : (p.applySetting (.headerTableSize size)).context = p.context := rfl
      obtain ⟨hsame, howed⟩ := ih (p.applySetting (.headerTableSize size)) hrep
      refine ⟨hsame.trans hcontext, ?_⟩
      rw [foldl_cons, howed]
      simp [Peer.applySetting, Setting.lowers, hrep.maxSize, Bool.or_assoc]
    | enablePush isEnable => exact ih p hrep
    | maxConcurrentStreams num => exact ih p hrep
    | initialWindowSize size => exact ih p hrep
    | maxFrameSize size => exact ih p hrep
    | maxHeaderListSize size => exact ih p hrep

section Runs

variable {useHuffman : Bool} {e : FrameEncoder} {p : Peer} {table : DynamicTable}

theorem encodeAll_idle (hidle : e.hpackEncoder = .idle table useHuffman) {parts : Parts}
    {caps : ℕ → ℕ} (hcaps : ∀ i, 0 < caps i) {k : ℕ} {fragments : List Bytes}
    {hpack : HpackEncoder}
    (hencoded : (e.hpackEncoder.setParts parts).encodeAll caps k = (fragments, hpack))
    (hfin : hpack.isFinished = true) :
    fragments.flatten = (encodeFields useHuffman table parts.fields).1 ∧
      hpack = .idle (encodeFields useHuffman table parts.fields).2 useHuffman := by
  have hspec := (HpackEncoder.encodeAll_spec caps hcaps k (e.hpackEncoder.setParts parts)).1
  rw [hencoded] at hspec
  obtain ⟨hflat, htable, hhuff⟩ := hspec hfin
  rw [hidle] at hflat htable hhuff
  refine ⟨hflat, ?_⟩
  rw [HpackEncoder.eq_idle hfin, htable, hhuff]
  rfl

theorem decodable_owed (hidle : e.hpackEncoder = .idle table useHuffman)
    (hrep : Represents table p.context) (hfits : table.Fits) (hmax : table.maxSize < usizeBound)
    (howed : p.owed = true) {events : List Event}
    (hcaps : ∀ parts caps, Event.request parts caps ∈ events → ∀ i, 0 < caps i)
    (hsize : ∀ parts caps, Event.request parts caps ∈ events → fieldsSize parts.fields < 2 ^ 62) :
    Decodable e p events ↔ ∀ event ∈ events, event.isRequest = false := by
  induction events generalizing e p with
  | nil => exact ⟨fun _ _ h => absurd h not_mem_nil, fun _ => .nil _ _⟩
  | cons event events ih =>
    have hcaps' := fun parts caps h => hcaps parts caps (.tail event h)
    have hsize' := fun parts caps h => hsize parts caps (.tail event h)
    cases event with
    | settings settings =>
      obtain ⟨hcontext, howed'⟩ := Peer.applySettings settings p hrep
      have hstep := ih (e := (updateSettings e (settingsAck settings)).1)
        (p := settings.foldl Peer.applySetting p)
        ((updateSettings_hpackEncoder e settings).trans hidle) (by rw [hcontext]; exact hrep)
        (by rw [howed', howed, Bool.true_or]) hcaps' hsize'
      rw [forall_mem_cons]
      constructor
      · intro h
        cases h with
        | settings later => exact ⟨rfl, hstep.mp later⟩
      · rintro ⟨-, h⟩
        exact .settings (hstep.mpr h)
    | request parts caps =>
      constructor
      · intro h
        cases h with
        | request encoded finished read later =>
          obtain ⟨hflat, -⟩ := encodeAll_idle hidle (hcaps parts caps (.head _))
            encoded finished
          have hflds : ∀ f ∈ parts.fields, f.size < 2 ^ 62 := fun f hf =>
            lt_of_le_of_lt (single_le_sum (fun _ _ => Nat.zero_le _) _
              (mem_map_of_mem hf)) (hsize parts caps (.head _))
          have hnot := representation_encodeFields useHuffman parts.fields hrep hfits hmax
            hflds
          rw [hflat, Peer.read, if_pos ⟨howed, hnot⟩] at read
          cases read
      · intro h
        exact absurd (h _ (.head _)) (by simp [Event.isRequest])

theorem Peer.read_encodeFields (hrep : Represents table p.context) (hfits : table.Fits)
    (hmax : table.maxSize < usizeBound) (howed : p.owed = false) {parts : Parts}
    (hsize : fieldsSize parts.fields < 2 ^ 62) :
    ∃ p', p.read (encodeFields useHuffman table parts.fields).1 =
        some (p', (sentFields useHuffman table parts.fields).map entryOf) ∧
      Represents (encodeFields useHuffman table parts.fields).2 p'.context ∧ p'.owed = false := by
  obtain ⟨context, hloop, hrep'⟩ := blockLoop_encodeFields p.limit useHuffman parts.fields hrep
    hfits hmax (fun f hf => lt_of_le_of_lt (single_le_sum (fun _ _ => Nat.zero_le _) _
      (mem_map_of_mem hf)) hsize) _ (Nat.lt_succ_self _)
  refine ⟨{ p with context, owed := false }, ?_, hrep', rfl⟩
  rw [Peer.read, if_neg (by simp [howed]), hloop]
  rfl

theorem decodable_iff (hidle : e.hpackEncoder = .idle table useHuffman)
    (hrep : Represents table p.context) (hfits : table.Fits) (hmax : table.maxSize < usizeBound)
    (howed : p.owed = false) {events : List Event}
    (hcaps : ∀ parts caps, Event.request parts caps ∈ events → ∀ i, 0 < caps i)
    (hsize : ∀ parts caps, Event.request parts caps ∈ events → fieldsSize parts.fields < 2 ^ 62) :
    Decodable e p events ↔ Unlowered useHuffman table events := by
  induction events generalizing e p table with
  | nil => exact ⟨fun _ => trivial, fun _ => .nil _ _⟩
  | cons event events ih =>
    have hcaps' := fun parts caps h => hcaps parts caps (.tail event h)
    have hsize' := fun parts caps h => hsize parts caps (.tail event h)
    cases event with
    | settings settings =>
      obtain ⟨hcontext, howed'⟩ := Peer.applySettings settings p hrep
      have hidle' := (updateSettings_hpackEncoder e settings).trans hidle
      have hrep' : Represents table (settings.foldl Peer.applySetting p).context := by
        rw [hcontext]
        exact hrep
      have hstep : Decodable e p (.settings settings :: events) ↔
          Decodable (updateSettings e (settingsAck settings)).1
            (settings.foldl Peer.applySetting p) events := by
        constructor
        · intro h
          cases h with
          | settings later => exact later
        · exact .settings
      rw [hstep, Unlowered]
      rw [howed, Bool.false_or] at howed'
      split
      · rename_i hlowers
        exact decodable_owed hidle' hrep' hfits hmax (howed'.trans hlowers) hcaps' hsize'
      · rename_i hlowers
        exact ih hidle' hrep' hfits hmax (howed'.trans (Bool.not_eq_true _ ▸ hlowers)) hcaps'
          hsize'
    | request parts caps =>
      have hcaps₀ := hcaps parts caps (.head _)
      obtain ⟨p₁, hread, hrep₁, howed₁⟩ := @Peer.read_encodeFields useHuffman p table hrep
        hfits hmax howed parts (hsize parts caps (.head _))
      obtain ⟨hfits₁, hmax₁⟩ := encodeFields_fits useHuffman table parts.fields hfits
      have hlater : ∀ hpack, hpack = HpackEncoder.idle
          (encodeFields useHuffman table parts.fields).2 useHuffman →
          (Decodable { e with hpackEncoder := hpack } p₁ events ↔
            Unlowered useHuffman (encodeFields useHuffman table parts.fields).2 events) :=
        fun hpack hhpack => ih hhpack hrep₁ hfits₁ (by rw [hmax₁]; exact hmax) howed₁ hcaps'
          hsize'
      rw [Unlowered]
      constructor
      · intro h
        cases h with
        | request encoded finished read later =>
          obtain ⟨hflat, hidle₁⟩ := encodeAll_idle hidle hcaps₀ encoded finished
          rw [hflat, hread] at read
          obtain ⟨rfl, hflds⟩ := Prod.mk.inj (some.inj read)
          exact ⟨(sentFields_entries useHuffman table parts.fields).mp hflds,
            (hlater _ hidle₁).mp later⟩
      · rintro ⟨hplain, hrest⟩
        have hends := (HpackEncoder.encodeAll_spec caps hcaps₀
          ((e.hpackEncoder.setParts parts).pending.1.length + 1)
          (e.hpackEncoder.setParts parts)).2 (Nat.lt_succ_self _)
        obtain ⟨hflat, hidle₁⟩ := encodeAll_idle hidle hcaps₀ rfl hends
        refine .request rfl hends ?_ ((hlater _ hidle₁).mpr hrest)
        rw [hflat, hread, (sentFields_entries useHuffman table parts.fields).mpr hplain]

end Runs

/-! ## The announced table size -/

def Plain (limit room : ℕ) (c : Context) (r : Representation) : Prop :=
  (∀ n, r ≠ .sizeUpdate n) → Regular limit room c r

variable {r : Representation}

theorem Meets.applied {room' fuel : ℕ} {bytes : Bytes} (h : Meets limit room c bytes room' c' r)
    {result : Context × List (Bytes × Bytes)} (hloop : c.blockLoop limit fuel bytes = some result) :
    ∃ next, c'.apply limit r = some next := by
  induction h generalizing fuel result with
  | @here room c bytes rest r read =>
    have hne : bytes ≠ [] := by
      rintro rfl
      cases read
    cases fuel with
    | zero => cases hloop
    | succ fuel =>
      rw [Context.blockLoop, if_neg hne, read, bind_some] at hloop
      obtain ⟨next, hnext, -⟩ := bind_eq_some_iff.mp hloop
      exact ⟨next, hnext⟩
  | @update room room' c c₁ c' bytes rest r r' read apply later ih
  | @field room room' c c₁ c' e bytes rest r r' read apply fits later ih =>
    have hne : bytes ≠ [] := by
      rintro rfl
      cases read
    cases fuel with
    | zero => cases hloop
    | succ fuel =>
      rw [Context.blockLoop, if_neg hne, read] at hloop
      simp only [bind_some, apply, map_eq_some_iff] at hloop
      obtain ⟨tail, htail, -⟩ := hloop
      exact ih htail

theorem MeetsInBlocks.applied {listLimit : ℕ} {blocks : List Bytes}
    (h : MeetsInBlocks limit listLimit c blocks room c' r)
    (haccepted : ∀ result ∈ c.blocks limit listLimit blocks, result.isSome = true) :
    ∃ next, c'.apply limit r = some next := by
  induction h with
  | @here c c' bytes blocks room r meets =>
    cases hblock : c.block limit listLimit bytes with
    | none =>
      rw [Context.blocks, hblock] at haccepted
      exact absurd (haccepted none (.head _)) (by simp)
    | some result =>
      obtain ⟨hloop, -⟩ := filter_eq_some_iff.mp hblock
      exact meets.applied hloop
  | @later c c₁ c' bytes fields blocks room r accepted meets ih =>
    rw [Context.blocks, accepted] at haccepted
    exact ih fun result hres => haccepted result (.tail _ hres)

theorem decodeBlocks_announced (announced listLimit : ℕ) (blocks : List Bytes)
    (haccepted : ∀ result ∈ (Context.new 4096).blocks announced listLimit blocks,
      result.isSome = true)
    (hplain : ∀ room c r, MeetsInBlocks announced listLimit (.new 4096) blocks room c r →
      Plain announced room c r) :
    List.Forall₂ Agrees ((HpackDecoder.withMaxSize 4096 listLimit).decodeBlocks blocks)
      ((Context.new 4096).blocks announced listLimit blocks) := by
  refine HpackDecoder.decodeBlocks_agrees announced listLimit blocks ⟨⟨rfl, rfl⟩, ?_⟩ ?_
  · intro f hf
    cases hf
  · intro room c r hmeets
    cases r with
    | sizeUpdate n =>
      obtain ⟨next, hnext⟩ := hmeets.applied haccepted
      rw [Context.apply] at hnext
      split at hnext
      · assumption
      · cases hnext
    | indexed i | literalWithIndexing name value | literalWithoutIndexing name value =>
      exact hplain room c _ hmeets (by simp)
    | literalNeverIndexed name value => exact hplain room c _ hmeets (by simp)

/-- The server reads every request exactly if none follows a value below 4096 and no field
has just its name in the dynamic table when it is encoded; and the client reads what a
server sends that uses the table size announced to it. -/
theorem hpack_header_table_size (maxFrameSize : ℕ) (useHuffman : Bool) (events : List Event)
    (hcaps : ∀ parts caps, Event.request parts caps ∈ events → ∀ i, 0 < caps i)
    (hsize : ∀ parts caps, Event.request parts caps ∈ events → fieldsSize parts.fields < 2 ^ 62) :
    (Decodable (.new maxFrameSize useHuffman) .new events ↔
      Unlowered useHuffman (.withMaxSize 4096) events) ∧
    ∀ announced listLimit blocks,
      (∀ result ∈ (Context.new 4096).blocks announced listLimit blocks, result.isSome = true) →
      (∀ room c r, MeetsInBlocks announced listLimit (.new 4096) blocks room c r →
        Plain announced room c r) →
      List.Forall₂ Agrees ((HpackDecoder.withMaxSize 4096 listLimit).decodeBlocks blocks)
        ((Context.new 4096).blocks announced listLimit blocks) :=
  ⟨decodable_iff rfl ⟨rfl, rfl⟩ (DynamicTable.withMaxSize_fits 4096) (by decide) rfl hcaps hsize,
    decodeBlocks_announced⟩

/-- A larger table is allowed, and the same field is sent twice; and the server, allowed
65536 octets as well, sets its table to that size. -/
theorem hpack_header_table_size_raised :
    Decodable (.new 16384 true) .new
      [.settings [.headerTableSize 65536], .request (fooBlock (str "bar") (by decide)) fun _ => 64,
        .request (fooBlock (str "bar") (by decide)) fun _ => 64] ∧
    List.Forall₂ Agrees
      ((HpackDecoder.withMaxSize 4096 65536).decodeBlocks [[0x3f, 0xe1, 0xff, 0x03, 0x82]])
      ((Context.new 4096).blocks 65536 65536 [[0x3f, 0xe1, 0xff, 0x03, 0x82]]) := by
  have hupd : Rfc7541.representation [0x3f, 0xe1, 0xff, 0x03, 0x82] =
      some (.sizeUpdate 65536, [0x82]) := by
    rw [← decode_representation]
    decide
  have hmethod : Rfc7541.representation [0x82] = some (.indexed 2, []) := by
    rw [← decode_representation]
    decide
  have happly : (Context.new 4096).apply 65536 (.sizeUpdate 65536) =
      some ((Context.new 4096).resize 65536, none) := by
    rw [Context.apply, if_pos le_rfl]
  have hnext : ((Context.new 4096).resize 65536).blockLoop 65536 5 [0x82] =
      some (.new 65536, [(str ":method", str "GET")]) := by
    rw [Context.blockLoop, if_neg (by simp), hmethod]
    rfl
  have hloop : (Context.new 4096).blockLoop 65536 6 [0x3f, 0xe1, 0xff, 0x03, 0x82] =
      some (.new 65536, [(str ":method", str "GET")]) := by
    rw [Context.blockLoop, if_neg (by simp), hupd]
    simp only [bind_some, happly, hnext]
    rfl
  have hblock : (Context.new 4096).block 65536 65536 [0x3f, 0xe1, 0xff, 0x03, 0x82] =
      some (.new 65536, [(str ":method", str "GET")]) := by
    change Option.filter _ ((Context.new 4096).blockLoop 65536 6 _) = _
    rw [hloop, filter_some, if_pos (by decide)]
  have htwice := hpack_header_table_size 16384 true [.settings [.headerTableSize 65536],
    .request (fooBlock (str "bar") (by decide)) fun _ => 64,
    .request (fooBlock (str "bar") (by decide)) fun _ => 64] (by simp) (by
      simp only [mem_cons, not_mem_nil, or_false]
      rintro parts caps (h | h | h)
      · cases h
      · obtain ⟨rfl, -⟩ := Event.request.inj h
        decide
      · obtain ⟨rfl, -⟩ := Event.request.inj h
        decide)
  constructor
  · refine htwice.1.mpr ?_
    rw [Unlowered, if_neg (by decide)]
    refine ⟨⟨?_, trivial⟩, ⟨?_, trivial⟩, trivial⟩
    · rintro ⟨-, i, hi⟩
      rw [show DynamicTable.index _ _ _ = none by decide] at hi
      cases hi
    · rintro ⟨-, i, hi⟩
      rw [show DynamicTable.index _ _ _ = some (.header 0) by decide] at hi
      cases hi
  · refine htwice.2 65536 65536 _ ?_ ?_
    · rw [Context.blocks, hblock]
      simp [Context.blocks]
    · intro room c r hmeets hne
      cases hmeets with
      | later _ hmeets => cases hmeets
      | here hmeets =>
        cases hmeets with
        | here read =>
          rw [hupd] at read
          obtain ⟨rfl, -⟩ := Prod.mk.inj (some.inj read)
          exact absurd rfl (hne 65536)
        | field read apply =>
          rw [hupd] at read
          obtain ⟨rfl, -⟩ := Prod.mk.inj (some.inj read)
          cases apply
        | update read apply later =>
          rw [hupd] at read
          obtain ⟨rfl, rfl⟩ := Prod.mk.inj (some.inj read)
          obtain ⟨rfl, -⟩ := Prod.mk.inj (some.inj apply)
          rcases later.cases_field hmethod rfl with ⟨rfl, rfl, rfl⟩ | later
          · intro e he _ _
            cases he
            decide
          · exact absurd later Meets.not_nil

/-- No table is allowed any more, and the next block does not say so. -/
theorem hpack_header_table_size_lowered :
    ¬ Decodable (.new 16384 true) .new
      [.settings [.headerTableSize 0], .request (fooBlock (str "bar") (by decide)) fun _ => 64] := by
  intro h
  have hunlowered := (@decodable_iff true (.new 16384 true) .new (.withMaxSize 4096) rfl ⟨rfl, rfl⟩
    (DynamicTable.withMaxSize_fits 4096) (by decide) rfl _ (by simp) (by
      intro parts caps hmem
      simp only [mem_cons, reduceCtorEq, false_or, not_mem_nil, or_false] at hmem
      obtain ⟨rfl, -⟩ := Event.request.inj hmem
      decide)).mp h
  rw [Unlowered, if_pos (by decide)] at hunlowered
  exact absurd (hunlowered _ (.head _)) (by simp [Event.isRequest])

end YlongHttp
