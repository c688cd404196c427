import YlongHttp.Model.Qpack.Decoder

/-! # Runs of the QPACK decoder

A run is any sequence of calls of the decoder's methods, with any octets. The loop of
`decode_ins` is the loop of a resumable decoder whose consumer is the table. -/

namespace YlongHttp.Qpack

open Library

namespace QpackDecoder

inductive Call where
  | decodeIns (buf : Bytes)
  | decodeRepr (buf : Bytes) (streamId : ℕ)
  | finish (streamId : ℕ)
  | streamCancel (streamId room : ℕ)
  | finishStream (id : ℕ)
  | setMaxFieldSectionSize (size : ℕ)

variable (d : QpackDecoder)

/-- The decoder after a call, and whether it returned an error or panicked. -/
def call : Call → QpackDecoder × Except (Fault QpackError) Unit
  | .decodeIns buf => ((d.decodeIns buf).1, (d.decodeIns buf).2.map fun _ => ())
  | .decodeRepr buf streamId =>
    ((d.decodeRepr buf streamId).1, (d.decodeRepr buf streamId).2.map fun _ => ())
  | .finish streamId => ((d.finish streamId).1, (d.finish streamId).2.map fun _ => ())
  | .streamCancel streamId room =>
    ((d.streamCancel streamId room).1, (d.streamCancel streamId room).2.map fun _ => ())
  | .finishStream id => d.finishStream id
  | .setMaxFieldSectionSize size => (d.setMaxFieldSectionSize size, .ok ())

/-- The states that calls lead to, each of them permitted. -/
inductive Reached (permits : QpackDecoder → Call → Prop) (maxBlocked maxCapacity : ℕ) :
    QpackDecoder → Prop
  | new : Reached permits maxBlocked maxCapacity (.new maxBlocked maxCapacity)
  | call {d : QpackDecoder} (c : Call) (reached : Reached permits maxBlocked maxCapacity d)
      (permitted : permits d c) : Reached permits maxBlocked maxCapacity (d.call c).1

def absorb (maxCapacity : ℕ) (table : DynamicTable) (inst : EncoderInstruction) :
    DynamicTable × Except (Fault QpackError) Unit :=
  match Updater.apply maxCapacity table inst with
  | .ok table => (table, .ok ())
  | .error e => (table, .error e)

def instStart : InstDecodeState := .encInstIndex .firstByte

theorem decodeInsLoop_eq_drive (maxCapacity fuel : ℕ) (table : DynamicTable)
    (state : Option InstDecodeState) (buf : Bytes) :
    decodeInsLoop maxCapacity fuel table state buf =
      drive InstDecodeState.decode instStart Fault.error (absorb maxCapacity) fuel table state
        buf := by
  induction fuel generalizing table state buf with
  | zero => rfl
  | succ fuel ih =>
    rw [decodeInsLoop, drive]
    split
    · rfl
    · rcases hd : (state.getD instStart).decode buf with ⟨inst | state' | e, rest⟩
      · simp only [instStart] at hd
        simp only [hd, absorb]
        cases Updater.apply maxCapacity table inst with
        | ok table' => exact ih table' none rest
        | error e => rfl
      · simp only [instStart] at hd
        simp only [hd]
      · simp only [instStart] at hd
        simp only [hd]

/-- The call comes to the table `table` and gives it the instruction `inst`. -/
def Gives (c : Call) (table : DynamicTable) (inst : EncoderInstruction) : Prop :=
  match c with
  | .decodeIns buf =>
    Library.Meets InstDecodeState.decode instStart (absorb d.maxTableCapacity) d.table d.instState buf
      table inst
  | _ => False

theorem decodeIns_table (buf : Bytes) :
    (d.decodeIns buf).1.table =
      (drive InstDecodeState.decode instStart Fault.error (absorb d.maxTableCapacity) buf.length
        d.table d.instState buf).1 := by
  rw [decodeIns, decodeInsLoop_eq_drive]
  split
  · rename_i h
    rw [h]
  · rename_i h
    rw [h]

theorem decodeIns_maxTableCapacity (buf : Bytes) :
    (d.decodeIns buf).1.maxTableCapacity = d.maxTableCapacity := by
  rw [decodeIns]
  split <;> rfl

/-! ### What field sections leave alone -/

/-- Nothing that the encoder stream sets has changed. -/
structure SameTable (d d' : QpackDecoder) : Prop where
  table : d'.table = d.table
  maxTableCapacity : d'.maxTableCapacity = d.maxTableCapacity
  instState : d'.instState = d.instState

theorem SameTable.trans {d d' d'' : QpackDecoder} (h : SameTable d d') (h' : SameTable d' d'') :
    SameTable d d'' :=
  ⟨h'.table.trans h.table, h'.maxTableCapacity.trans h.maxTableCapacity,
    h'.instState.trans h.instState⟩

theorem decodeBufferedRepr_table (buf : Bytes) (message : ReprMessage) (streamId : ℕ) :
    SameTable d (d.decodeBufferedRepr buf message streamId).1 := by
  rw [decodeBufferedRepr]
  split <;> exact ⟨rfl, rfl, rfl⟩

theorem decodeRemaining_table (message : ReprMessage) (streamId : ℕ) :
    SameTable d (d.decodeRemaining message streamId).1 := by
  rw [decodeRemaining]
  split
  · exact ⟨rfl, rfl, rfl⟩
  · rename_i vec _
    have h := decodeBufferedRepr_table d vec { message with remaining := none } streamId
    split <;> rename_i heq <;> rwa [heq] at h

theorem decodeRepr_table (buf : Bytes) (streamId : ℕ) :
    SameTable d (d.decodeRepr buf streamId).1 := by
  rw [decodeRepr]
  split
  · exact ⟨rfl, rfl, rfl⟩
  · have herase : SameTable d { d with streams := d.streams.erase streamId } := ⟨rfl, rfl, rfl⟩
    have h := decodeRemaining_table { d with streams := d.streams.erase streamId }
      ((d.streams.lookup streamId).getD .new) streamId
    simp only
    split
    · rename_i heq
      rw [heq] at h
      exact herase.trans h
    · rename_i d' message heq
      rw [heq] at h
      have h' := decodeBufferedRepr_table d' buf message streamId
      split
      · rename_i heq'
        rw [heq'] at h'
        exact (herase.trans h).trans h'
      · rename_i heq'
        rw [heq'] at h'
        exact ((herase.trans h).trans h').trans ⟨rfl, rfl, rfl⟩

theorem finish_table (streamId : ℕ) : SameTable d (d.finish streamId).1 := by
  rw [finish]
  split
  · exact ⟨rfl, rfl, rfl⟩
  · split
    · exact ⟨rfl, rfl, rfl⟩
    · split <;> exact ⟨rfl, rfl, rfl⟩

theorem streamCancel_table (streamId room : ℕ) : SameTable d (d.streamCancel streamId room).1 := by
  rw [streamCancel]
  split
  · simp only
    split <;> exact ⟨rfl, rfl, rfl⟩
  · exact ⟨rfl, rfl, rfl⟩

theorem finishStream_table (id : ℕ) : SameTable d (d.finishStream id).1 := by
  rw [finishStream]
  split <;> exact ⟨rfl, rfl, rfl⟩

theorem call_invariant {P : DynamicTable → Prop} (c : Call) (hd : P d.table)
    (h : ∀ table inst, d.Gives c table inst → P table → P (absorb d.maxTableCapacity table inst).1) :
    P (d.call c).1.table := by
  cases c with
  | decodeIns buf =>
    simp only [call, decodeIns_table]
    exact drive_invariant_of_meets buf.length d.table d.instState buf hd h
  | decodeRepr buf streamId => rwa [call, (decodeRepr_table d buf streamId).table]
  | finish streamId => rwa [call, (finish_table d streamId).table]
  | streamCancel streamId room => rwa [call, (streamCancel_table d streamId room).table]
  | finishStream id => rwa [call, (finishStream_table d id).table]
  | setMaxFieldSectionSize size => exact hd

theorem call_maxTableCapacity (c : Call) : (d.call c).1.maxTableCapacity = d.maxTableCapacity := by
  cases c with
  | decodeIns buf => exact decodeIns_maxTableCapacity d buf
  | decodeRepr buf streamId => exact (decodeRepr_table d buf streamId).maxTableCapacity
  | finish streamId => exact (finish_table d streamId).maxTableCapacity
  | streamCancel streamId room => exact (streamCancel_table d streamId room).maxTableCapacity
  | finishStream id => exact (finishStream_table d id).maxTableCapacity
  | setMaxFieldSectionSize size => rfl

end QpackDecoder

end YlongHttp.Qpack
