import YlongHttp.Verification.Hpack.Segmentation

/-! # The errors of the decoder

Decoding a header block fails with a connection error: that of the compression, or the one
for a header list that is too long. -/

namespace YlongHttp

/-- A panic apart, the fault is one of those that a header block may end with. -/
def HpackFault : Fault H2Error → Prop
  | .error e => HpackError e
  | .panic => True

variable {e : Fault H2Error}

theorem Updater.addLine_fault {u : Updater} {table : DynamicTable} {h : Header} {v : Bytes}
    (herr : (u.addLine table h v).2 = .error e) : HpackFault e := by
  simp only [addLine] at herr
  split at herr
  · cases herr
    exact .inr rfl
  · split at herr
    · cases herr
      trivial
    · cases herr

theorem Updater.update_fault (u : Updater) (r : Representation) (e : Fault H2Error)
    (herr : (u.update r).2 = .error e) : HpackFault e := by
  cases r <;>
    simp only [update, updateIndexed, updateLiteralWithIndexing, updateLiteralWithoutIndexing]
      at herr
  case sizeUpdate n => cases herr
  all_goals
    split at herr
    · cases herr
      exact .inl rfl
    · exact addLine_fault herr

variable {d d' : HpackDecoder}

theorem HpackDecoder.decode_fault {buf : Bytes} (herr : d.decode buf = (d', .error e)) :
    HpackFault e := by
  rw [d.decode_eq_drive buf buf.length le_rfl] at herr
  split at herr
  · cases herr
  · rename_i u state e' hdrive
    obtain rfl := Except.error.inj (Prod.mk.inj herr).2
    exact Library.drive_error (P := HpackFault) (fun s => (reprDecodeState_parses s).fails)
      Updater.update_fault _ _ _ _ _ (congrArg (fun r => r.2.2) hdrive)

theorem HpackDecoder.finish_error {e : H2Error} (herr : d.finish = (d', .error e)) :
    HpackError e := by
  simp only [finish] at herr
  split at herr
  · obtain rfl := Except.error.inj (Prod.mk.inj herr).2
    exact .inl rfl
  · cases herr

end YlongHttp
