import YlongHttp.Verification.Mime.Encoding

/-! # Messages that are encoded and decoded -/

namespace YlongHttp.Mime

open List

/-- The encoder comes to its end with any buffers that are not empty, and what it has written is
read back in one call, with exactly what follows as the rest. The headers of the outermost message
are not encoded. -/
theorem decode_encoded {multi : MimeMulti} (h : multi.Legal) :
    (∀ rooms : ℕ → ℕ, (∀ i, 0 < rooms i) →
      ∃ n bytes, (MimeMultiEncoder.fromMulti multi).Encodes ((List.range n).map rooms) bytes) ∧
    ∀ rooms bytes, (∀ room ∈ rooms, 0 < room) →
      (MimeMultiEncoder.fromMulti multi).Encodes rooms bytes → ∀ rest, ∃ fuel last,
        MimeMultiDecoder.new.decode fuel (bytes ++ rest) =
          some (.ok (last, some { multi with headers := .new }, rest)) := by
  refine ⟨fun rooms hrooms => ?_, fun rooms bytes hrooms hencs rest => ?_⟩
  · obtain ⟨n, hn⟩ := encodes_total multi rooms hrooms
    exact ⟨n, multi.text, hn⟩
  · rw [encodes_eq hrooms hencs]
    exact decode_text h rest

def single (name value : Bytes) : Headers := (Headers.new.insert name value).getD .new

theorem single_plain {name value lower : Bytes}
    (h : (single name value).entries.map
      (fun entry => (entry.1.name, entry.2.inner, entry.2.isSensitive)) = [(lower, [value], false)])
    (hval : trimFrontLwsp value = value) (hlower : lower ≠ [])
    (htoken : ∀ b ∈ lower, Http1.isHeaderNameByte b = true) :
    ∀ entry ∈ (single name value).entries, Plain entry := by
  intro entry hent
  have hmem := mem_map_of_mem
    (f := fun entry : HeaderName × HeaderValue => (entry.1.name, entry.2.inner, entry.2.isSensitive))
    hent
  rw [h, mem_singleton, Prod.mk.injEq, Prod.mk.injEq] at hmem
  obtain ⟨hname, hinner, hsensitive⟩ := hmem
  exact ⟨⟨value, hinner, hval⟩, hsensitive, by rwa [hname], by rwa [hname]⟩

def nested : MimeMulti where
  headers := .new
  boundary := str "o"
  list :=
    [.part ⟨.new, str "text"⟩,
      .multi (single (str "Content-Type") (str "multipart/mixed; boundary=i")) (str "i")
        [.part ⟨.new, []⟩]]

theorem legal_empty (boundary : Bytes) : XPart.Legal boundary (.part ⟨.new, []⟩) :=
  .part (fun _ hent => absurd hent not_mem_nil) rfl .nil

theorem legal_nested : nested.Legal := by
  have htext : XPart.Legal (str "o") (.part ⟨.new, str "text"⟩) := by
    refine .part (fun _ hent => absurd hent not_mem_nil) rfl ?_
    have hlines : bodyText (str "text") = str "text\r" ++ lf :: [] := by decide
    rw [hlines]
    exact .cons (by decide) (by decide) .nil
  have hinner : XPart.Legal (str "o")
      (.multi (single (str "Content-Type") (str "multipart/mixed; boundary=i")) (str "i")
        [.part ⟨.new, []⟩]) := by
    refine .multi (@single_plain _ _ (str "content-type") (by decide) (by decide) (by decide)
      (Http1.forall_mem_of_all (by decide))) (by decide)
      (sound_of_getLast (by decide) rfl (by decide)) (by nofun) ?_
    intro x hx
    rw [mem_singleton.mp hx]
    exact legal_empty _
  refine ⟨sound_of_getLast (by decide) rfl (by decide), by decide, by nofun, ?_⟩
  intro x hx
  rcases mem_cons.mp hx with rfl | hx
  · exact htext
  · rw [mem_singleton.mp hx]
    exact hinner

theorem decode_encoded_nested :
    ∃ bytes fuel last, MimeMultiDecoder.new.decode fuel (bytes ++ str "rest") =
      some (.ok (last, some nested, str "rest")) := by
  obtain ⟨htotal, hdec⟩ := decode_encoded legal_nested
  obtain ⟨n, bytes, hbytes⟩ := htotal (fun _ => 7) (fun _ => Nat.succ_pos 6)
  obtain ⟨fuel, last, hlast⟩ := hdec _ bytes (by simp) hbytes (str "rest")
  exact ⟨bytes, fuel, last, hlast⟩

def titled : MimeMulti where
  headers := single (str "Subject") (str "s")
  boundary := str "o"
  list := [.part ⟨.new, []⟩]

/-- The field is not read back. -/
theorem not_decode_encoded :
    (∀ entry ∈ titled.headers.entries, Plain entry) ∧
      (∀ x ∈ titled.list, XPart.Legal titled.boundary x) ∧
      ∃ rooms bytes, (MimeMultiEncoder.fromMulti titled).Encodes rooms bytes ∧
        ∃ fuel last multi,
          MimeMultiDecoder.new.decode fuel bytes = some (.ok (last, some multi, [])) ∧
            multi.headers ≠ titled.headers := by
  have hlegal : titled.Legal := by
    refine ⟨sound_of_getLast (by decide) rfl (by decide), by decide, by nofun, ?_⟩
    intro x hx
    rw [mem_singleton.mp hx]
    exact legal_empty _
  obtain ⟨n, hn⟩ := encodes_total titled (fun _ => 1) fun _ => Nat.one_pos
  obtain ⟨fuel, last, hlast⟩ := decode_text hlegal []
  rw [append_nil] at hlast
  refine ⟨@single_plain _ _ (str "subject") (by decide) (by decide) (by decide)
      (Http1.forall_mem_of_all (by decide)),
    hlegal.legal, _, _, hn, fuel, last, _, hlast, ?_⟩
  intro heq
  have hlen := congrArg (fun headers : Headers => headers.entries.length) heq
  revert hlen
  decide

end YlongHttp.Mime
