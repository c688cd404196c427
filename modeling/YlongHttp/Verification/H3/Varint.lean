import YlongHttp.Model.H3.Octets

/-! # Variable-length integers

What is written is read back, from any octets that begin with it. -/

namespace YlongHttp.H3

open List Nat

/-! ## Big-endian octets -/

theorem fromBeBytes_cons (b : UInt8) (octets : Bytes) :
    fromBeBytes (b :: octets) = b.toNat * 256 ^ octets.length + fromBeBytes octets := by
  have hfold : ∀ (octets : Bytes) (n : ℕ), octets.foldl (fun n b => 256 * n + b.toNat) n =
      n * 256 ^ octets.length + fromBeBytes octets := by
    intro octets
    induction octets with
    | nil => simp [fromBeBytes]
    | cons b octets ih =>
      intro n
      have hcons : fromBeBytes (b :: octets) =
          b.toNat * 256 ^ octets.length + fromBeBytes octets := by
        rw [fromBeBytes, foldl_cons, ih]
        simp
      rw [foldl_cons, ih, hcons, length_cons, pow_succ]
      ring
  simpa [fromBeBytes] using hfold octets b.toNat

theorem fromBeBytes_toBeBytes (value len : ℕ) :
    fromBeBytes (toBeBytes value len) = value % 256 ^ len := by
  induction len with
  | zero => simp [toBeBytes, fromBeBytes, mod_one]
  | succ len ih =>
    have hbyte : (2 : ℕ) ^ 8 = 256 := rfl
    rw [toBeBytes, fromBeBytes_cons, ih, length_toBeBytes, UInt8.toNat_ofNat', hbyte, pow_succ,
      mod_mul, mul_comm, add_comm]

/-! ## One number -/

/-- The octets of a number below `2 ^ 62`. -/
def varint (v : ℕ) : Bytes := writeBytes v ((varintLen v).getD 0)

theorem varintLen_isSome {v : ℕ} : (varintLen v).isSome ↔ v < 2 ^ 62 := by
  simp only [varintLen]
  split <;> [skip; split <;> [skip; split <;> [skip; split]]] <;>
    simp only [Option.isSome_some, Option.isSome_none, true_iff, Bool.false_eq_true, false_iff] <;>
      omega

theorem length_varint (v : ℕ) : (varint v).length = (varintLen v).getD 0 := length_writeBytes _ _

theorem length_varint_le (v : ℕ) : (varint v).length ≤ 8 := by
  rw [length_varint, varintLen]
  split <;> [decide; split <;> [decide; split <;> [decide; split <;> decide]]]

variable {v room len : ℕ}

theorem encodeVarInteger_eq (hv : v < 2 ^ 62) (hroom : (varint v).length ≤ room) :
    encodeVarInteger v room = .ok (varint v) := by
  obtain ⟨len, hlen⟩ := Option.isSome_iff_exists.mp (varintLen_isSome.mpr hv)
  rw [length_varint, hlen] at hroom
  rw [encodeVarInteger, varint, hlen]
  exact if_neg (not_lt.mpr hroom)

theorem varintLen_of_lt (hv : v < 2 ^ 62) : varintLen v = some (varint v).length := by
  obtain ⟨len, hlen⟩ := Option.isSome_iff_exists.mp (varintLen_isSome.mpr hv)
  rw [length_varint, hlen]
  rfl

theorem encodeVarInteger_panic (hv : 2 ^ 62 ≤ v) : encodeVarInteger v room = .error .panic := by
  have hnone : varintLen v = none := by
    have hsome := (@varintLen_isSome v).not.mpr (not_lt.mpr hv)
    simpa using hsome
  rw [encodeVarInteger, hnone]

theorem lenMark_spec (hlen : len = 1 ∨ len = 2 ∨ len = 4 ∨ len = 8) {b : ℕ} (hb : b < 64) :
    parseVarintLen (UInt8.ofNat b ||| lenMark len) = len ∧
      (UInt8.ofNat b ||| lenMark len).toNat % 64 = b ∧
      (len = 1 → (UInt8.ofNat b ||| lenMark len).toNat = b) := by
  have hall : ∀ b : Fin 64, ∀ len ∈ [1, 2, 4, 8],
      parseVarintLen (UInt8.ofNat b ||| lenMark len) = len ∧
        (UInt8.ofNat b ||| lenMark len).toNat % 64 = b ∧
        (len = 1 → (UInt8.ofNat b ||| lenMark len).toNat = b) := by
    decide +kernel
  exact hall ⟨b, hb⟩ len (by rcases hlen with rfl | rfl | rfl | rfl <;> simp)

theorem valueMask_and {len n v : ℕ} (hlen : len = 2 ∨ len = 4 ∨ len = 8)
    (hn : n % (64 * 256 ^ (len - 1)) = v) : n &&& valueMask len = v := by
  rcases hlen with rfl | rfl | rfl
  · exact (and_two_pow_sub_one_eq_mod n 14).trans hn
  · exact (and_two_pow_sub_one_eq_mod n 30).trans hn
  · exact (and_two_pow_sub_one_eq_mod n 62).trans hn

theorem varintLen_classes (h : varintLen v = some len) :
    v < 64 ∧ len = 1 ∨ 64 ≤ v ∧ v < 16384 ∧ len = 2 ∨ 16384 ≤ v ∧ v < 1073741824 ∧ len = 4 ∨
      1073741824 ≤ v ∧ v < 4611686018427387904 ∧ len = 8 := by
  simp only [varintLen] at h
  split at h
  · cases h
    omega
  · split at h
    · cases h
      omega
    · split at h
      · cases h
        omega
      · split at h
        · cases h
          omega
        · cases h

theorem varintLen_spec (h : varintLen v = some len) :
    (len = 1 ∨ len = 2 ∨ len = 4 ∨ len = 8) ∧ v < 64 * 256 ^ (len - 1) := by
  rcases varintLen_classes h with ⟨hv, rfl⟩ | ⟨-, hv, rfl⟩ | ⟨-, hv, rfl⟩ | ⟨-, hv, rfl⟩
  all_goals exact ⟨by simp, hv⟩

theorem varint_eq (hv : v < 2 ^ 62) : ∃ len, (varint v).length = len + 1 ∧
    (len + 1 = 1 ∨ len + 1 = 2 ∨ len + 1 = 4 ∨ len + 1 = 8) ∧ v < 64 * 256 ^ len ∧
    v / 256 ^ len < 64 ∧
    varint v = (UInt8.ofNat (v / 256 ^ len) ||| lenMark (len + 1)) :: toBeBytes v len := by
  have hsome := varintLen_of_lt hv
  generalize (varint v).length = len at hsome ⊢
  obtain ⟨hcases, hbound⟩ := varintLen_spec hsome
  obtain ⟨len, rfl⟩ : ∃ n, len = n + 1 := ⟨len - 1, by omega⟩
  rw [Nat.add_sub_cancel] at hbound
  refine ⟨len, rfl, hcases, hbound, Nat.div_lt_of_lt_mul (Nat.mul_comm _ _ ▸ hbound), ?_⟩
  rw [varint, hsome]
  rfl

theorem varint_cons (hv : v < 2 ^ 62) :
    ∃ b bytes, varint v = b :: bytes ∧ parseVarintLen b = (varint v).length := by
  obtain ⟨len, hlen, hcases, -, hhead, hoct⟩ := varint_eq hv
  exact ⟨_, _, hoct, (lenMark_spec hcases hhead).1.trans hlen.symm⟩

theorem getVarint_short (hv : v < 2 ^ 62) {octets : Bytes} (hpre : octets <+: varint v)
    (hne : octets ≠ varint v) : getVarint octets = none := by
  obtain ⟨b, bytes, hcons, hlen⟩ := varint_cons hv
  cases octets with
  | nil => rfl
  | cons b' octets =>
    have hlt : (b' :: octets).length < (varint v).length :=
      hpre.length_le.lt_of_ne fun heq => hne (hpre.eq_of_length heq)
    rw [hcons] at hpre
    obtain ⟨rfl, -⟩ := cons_prefix_cons.mp hpre
    rw [getVarint, if_pos (hlen ▸ hlt)]

theorem getVarint_dropLast (hv : v < 2 ^ 62) : getVarint (varint v).dropLast = none := by
  obtain ⟨b, bytes, hcons, -⟩ := varint_cons hv
  refine getVarint_short hv (List.dropLast_prefix _) fun heq => ?_
  have hlength := congrArg length heq
  rw [length_dropLast, hcons, length_cons] at hlength
  omega

theorem getVarint_varint (hv : v < 2 ^ 62) (rest : Bytes) :
    getVarint (varint v ++ rest) = some (v, rest) := by
  obtain ⟨len, hlen, hcases, hbound, hhead, hoct⟩ := varint_eq hv
  obtain ⟨hparse, hmod, hone⟩ := lenMark_spec hcases hhead
  have htake : (varint v ++ rest).take (len + 1) = varint v := by rw [← hlen, take_left]
  have hdrop : (varint v ++ rest).drop (len + 1) = rest := by rw [← hlen, drop_left]
  have hroom : ¬ len + 1 > (varint v ++ rest).length := by
    rw [length_append, hlen]
    omega
  have hget : getVarint (varint v ++ rest) =
      some (fromBeBytes (varint v) &&& valueMask (len + 1), rest) := by
    rw [getVarint.eq_def, hoct, cons_append]
    dsimp only
    rw [hparse, ← cons_append, ← hoct, if_neg hroom, htake, hdrop]
  have hval : fromBeBytes (varint v) % (64 * 256 ^ len) = v := by
    rw [hoct, fromBeBytes_cons, length_toBeBytes, fromBeBytes_toBeBytes]
    have hsplit := div_add_mod (UInt8.ofNat (v / 256 ^ len) ||| lenMark (len + 1)).toNat 64
    rw [hmod] at hsplit
    have hdiv := div_add_mod v (256 ^ len)
    rw [← hsplit, add_mul, add_assoc, mul_comm (v / 256 ^ len), hdiv,
      mul_right_comm, mul_add_mod, mod_eq_of_lt hbound]
  have hmask : fromBeBytes (varint v) &&& valueMask (len + 1) = v := by
    rcases hcases with hlen1 | hcases
    · obtain rfl : len = 0 := by omega
      have hsmall : fromBeBytes (varint v) = v := by
        rw [hoct, fromBeBytes_cons, hone rfl]
        simp [toBeBytes, fromBeBytes]
      rw [hsmall]
      refine (and_two_pow_sub_one_eq_mod v 8).trans (mod_eq_of_lt ?_)
      omega
    · exact valueMask_and hcases hval
  rw [hget, hmask]

/-! ## Numbers in a buffer -/

theorem parseVarintLen_cases (b : UInt8) :
    parseVarintLen b = 1 ∨ parseVarintLen b = 2 ∨ parseVarintLen b = 4 ∨ parseVarintLen b = 8 := by
  have hall : ∀ k < 256, parseVarintLen (UInt8.ofNat k) ∈ [1, 2, 4, 8] := by decide +kernel
  have hb := hall b.toNat b.toNat_lt
  rw [UInt8.ofNat_toNat] at hb
  simpa using hb

namespace ReadableBytes

variable (s : ReadableBytes)

theorem length_remaining : s.remaining.length = s.cap := length_drop

theorem poll_of_le (h : len ≤ s.cap) :
    ∃ s', s.poll len = (.ok (fromBeBytes (s.remaining.take len)), s') ∧ s'.buf = s.buf ∧
      s'.idx = s.idx + len ∧ s'.remaining = s.remaining.drop len := by
  have hlen : ¬ s.remaining.length < len := by
    rw [length_remaining]
    omega
  rw [poll, dif_neg hlen]
  exact ⟨_, rfl, rfl, rfl, drop_drop.symm⟩

theorem getVarint_eq :
    (H3.getVarint s.remaining = none → s.getVarint = (.error bufferTooShort, s)) ∧
    ∀ v rest, H3.getVarint s.remaining = some (v, rest) →
      ∃ s', s.getVarint = (.ok v, s') ∧ s'.buf = s.buf ∧ s'.remaining = rest ∧
        s'.idx = s.idx + (s.remaining.length - rest.length) := by
  have hcap := s.length_remaining
  rw [getVarint, peek]
  cases hleft : s.remaining with
  | nil =>
    refine ⟨fun _ => rfl, fun v rest h => ?_⟩
    cases h
  | cons first bytes =>
    have hbyte : UInt8.ofNat (fromBeBytes ((first :: bytes).take 1)) = first := by
      simp [fromBeBytes]
    have hone : ¬ (first :: bytes).length < 1 := by simp
    rw [hleft] at hcap
    rw [if_neg hone]
    dsimp only
    rw [hbyte, H3.getVarint, hcap]
    by_cases hshort : parseVarintLen first > s.cap
    · rw [if_pos hshort, if_pos hshort]
      refine ⟨fun _ => rfl, fun v rest h => ?_⟩
      cases h
    · rw [if_neg hshort, if_neg hshort]
      refine ⟨fun h => ?_, fun v rest h => ?_⟩
      · cases h
      · obtain ⟨s', hpoll, hbuf, hidx, hrest⟩ := s.poll_of_le (le_of_not_gt hshort)
        simp only [Option.some.injEq, Prod.mk.injEq] at h
        obtain ⟨rfl, rfl⟩ := h
        rw [hleft] at hpoll hrest
        refine ⟨s', ?_, hbuf, hrest, ?_⟩
        · rcases parseVarintLen_cases first with hlen | hlen | hlen | hlen
          · have hval : fromBeBytes ((first :: bytes).take 1) < 2 ^ 8 := by
              simpa [fromBeBytes] using first.toNat_lt
            rw [hlen] at hpoll ⊢
            rw [show valueMask 1 = 2 ^ 8 - 1 from rfl, and_two_pow_sub_one_eq_mod,
              mod_eq_of_lt hval]
            exact hpoll
          all_goals
            rw [hlen] at hpoll ⊢
            simp only [pollU16, pollU32, pollU64, hpoll]
            rfl
        · rw [hidx, length_drop, hcap]
          omega

end ReadableBytes

/-- What a length of a number below `2 ^ (8 * len - 2)` can be. -/
def varintLens (v : ℕ) : Set ℕ := {len | len ∈ [1, 2, 4, 8] ∧ v < 2 ^ (8 * len - 2)}

theorem varintLen_isLeast (h : varintLen v = some len) : IsLeast (varintLens v) len := by
  have hclasses := varintLen_classes h
  constructor
  · rcases hclasses with ⟨hv, rfl⟩ | ⟨-, hv, rfl⟩ | ⟨-, hv, rfl⟩ | ⟨-, hv, rfl⟩
    all_goals exact ⟨by simp, hv⟩
  · rintro l ⟨hl, hv⟩
    simp only [mem_cons, not_mem_nil, or_false] at hl
    rcases hl with rfl | rfl | rfl | rfl
    all_goals
      norm_num at hv
      omega

variable (w : WritableBytes)

theorem WritableBytes.writeBytes_of_le (v : ℕ) (hroom : len ≤ w.remaining) :
    ∃ w', w.writeBytes v len = (.ok len, w') ∧ w'.idx = w.idx + len ∧
      w'.bytes = w.bytes.take w.idx ++ H3.writeBytes v len ++ w.bytes.drop (w.idx + len) := by
  rw [writeBytes, if_neg (not_lt.mpr hroom)]
  exact ⟨_, rfl, rfl, rfl⟩

theorem WritableBytes.writeVarint_of_le (hv : v < 2 ^ 62) (hroom : (varint v).length ≤ w.remaining) :
    ∃ w', w.writeVarint v = (.ok (varint v).length, w') ∧ w'.idx = w.idx + (varint v).length ∧
      w'.bytes = w.bytes.take w.idx ++ varint v ++ w.bytes.drop (w.idx + (varint v).length) := by
  have hsome := varintLen_of_lt hv
  have hoct : varint v = H3.writeBytes v (varint v).length :=
    congrArg (H3.writeBytes v) (length_varint v).symm
  have hcases := (varintLen_spec hsome).1
  generalize (varint v).length = len at *
  rw [writeVarint, hsome, hoct]
  change ∃ w', w.writeVarintWithLen v len = _ ∧ _
  rw [writeVarintWithLen.eq_def, if_neg (not_lt.mpr hroom)]
  have hwrite := w.writeBytes_of_le v hroom
  rcases hcases with rfl | rfl | rfl | rfl <;> exact hwrite

/-- A number below `2 ^ 62` takes the fewest octets of the four lengths. A writer with room for
them writes them behind what it has written, a reader reads the number back from them and stops
right behind them. Without the room nothing is written, and without the last of them nothing is
read. -/
theorem writeVarint_getVarint {v : ℕ} (hv : v < 2 ^ 62) :
    ∃ len octets, varintLen v = some len ∧ IsLeast (varintLens v) len ∧ octets.length = len ∧
      (∀ w : WritableBytes, len ≤ w.remaining →
        ∃ w', w.writeVarint v = (.ok len, w') ∧ w'.idx = w.idx + len ∧
          w'.bytes = w.bytes.take w.idx ++ octets ++ w.bytes.drop (w.idx + len)) ∧
      (∀ w : WritableBytes, w.remaining < len → w.writeVarint v = (.error bufferTooShort, w)) ∧
      (∀ (s : ReadableBytes) (r : Bytes), s.remaining = octets ++ r →
        ∃ s', s.getVarint = (.ok v, s') ∧ s'.buf = s.buf ∧ s'.idx = s.idx + len ∧
          s'.remaining = r) ∧
      ∀ s : ReadableBytes, s.remaining <+: octets → s.remaining ≠ octets →
        s.getVarint = (.error bufferTooShort, s) := by
  have hsome := varintLen_of_lt hv
  refine ⟨_, varint v, hsome, varintLen_isLeast hsome, rfl, fun w => w.writeVarint_of_le hv,
    fun w hroom => ?_, fun s r hleft => ?_,
    fun s hpre hne => s.getVarint_eq.1 (getVarint_short hv hpre hne)⟩
  · rw [WritableBytes.writeVarint, hsome]
    exact if_pos hroom
  · obtain ⟨s', hget, hbuf, hrest, hidx⟩ :=
      s.getVarint_eq.2 v r (hleft ▸ getVarint_varint hv r)
    rw [hleft, length_append, Nat.add_sub_cancel] at hidx
    exact ⟨s', hget, hbuf, hidx, hrest⟩

theorem writeVarint_getVarint_max :
    ∃ octets : Bytes, octets.length = 8 ∧ ∀ s : ReadableBytes, s.remaining = octets ++ [0x40] →
      ∃ s', s.getVarint = (.ok (2 ^ 62 - 1), s') ∧ s'.remaining = [0x40] := by
  obtain ⟨len, octets, hlen, -, hlength, -, -, hread, -⟩ :=
    writeVarint_getVarint (v := 2 ^ 62 - 1) (by norm_num)
  obtain rfl : 8 = len := Option.some.inj hlen
  refine ⟨octets, hlength, fun s hs => ?_⟩
  obtain ⟨s', hget, -, -, hrest⟩ := hread s [0x40] hs
  exact ⟨s', hget, hrest⟩

end YlongHttp.H3
