import YlongHttp.Model.Pins

/-! # Pins are compared with a digest

A slice is out of range only where the first entry stands behind a separator, and a list of keys
is searched for the digest. -/

namespace YlongHttp.Client

open List Option

/-! ## Base64 -/

section Base64

def letterOf (value : ℕ) : UInt8 :=
  if value < 26 then UInt8.ofNat ('A'.toNat + value)
  else if value < 52 then UInt8.ofNat ('a'.toNat + (value - 26))
  else if value < 62 then UInt8.ofNat ('0'.toNat + (value - 52))
  else if value = 62 then '+'.toUInt8
  else '/'.toUInt8

/-- The `n`-th last of the four digits of 24 bits. -/
def sextet (group n : ℕ) : ℕ := group / 64 ^ n % 64

/-- The encoding of RFC 4648, section 4: 24 bits are four letters; where bits are missing at the
end, they are 0, and letters that none of the octets reaches into are padding. -/
def rfc4648 : Bytes → Bytes
  | [] => []
  | [a] =>
    let group := a.toNat * 2 ^ 16
    [letterOf (sextet group 3), letterOf (sextet group 2), '='.toUInt8, '='.toUInt8]
  | [a, b] =>
    let group := a.toNat * 2 ^ 16 + b.toNat * 2 ^ 8
    [letterOf (sextet group 3), letterOf (sextet group 2), letterOf (sextet group 1), '='.toUInt8]
  | a :: b :: c :: input =>
    let group := a.toNat * 2 ^ 16 + b.toNat * 2 ^ 8 + c.toNat
    letterOf (sextet group 3) :: letterOf (sextet group 2) :: letterOf (sextet group 1) ::
      letterOf (sextet group 0) :: rfc4648 input

theorem sextet_eq {x y z : ℕ} (hx : x < 256) (hy : y < 256) (hz : z < 256) :
    sextet (x * 2 ^ 16 + y * 2 ^ 8 + z) 3 = x / 4 ∧
      sextet (x * 2 ^ 16 + y * 2 ^ 8 + z) 2 = x % 4 * 16 + y / 16 ∧
      sextet (x * 2 ^ 16 + y * 2 ^ 8 + z) 1 = y % 16 * 4 + z / 64 ∧
      sextet (x * 2 ^ 16 + y * 2 ^ 8 + z) 0 = z % 64 := by
  simp only [sextet]
  omega

theorem base64Letter_eq {index : UInt8} {value : ℕ} (hidx : index.toNat = value)
    (hval : value < 64) : base64Letter index = letterOf value := by
  have hall : ∀ value < 64, base64Table.getD value 0 = letterOf value := by decide
  rw [base64Letter, hidx, hall value hval]

variable (a b c : UInt8)

theorem first_toNat : ((a >>> 2) &&& 0x3f).toNat = a.toNat / 4 := by
  have hlt := a.toNat_lt
  have hand : a.toNat / 4 &&& 0x3f = a.toNat / 4 % 64 := Nat.and_two_pow_sub_one_eq_mod _ 6
  simp only [UInt8.toNat_and, UInt8.toNat_shiftRight, UInt8.reduceToNat, Nat.shiftRight_eq_div_pow,
    Nat.reduceMod, Nat.reducePow]
  rw [hand]
  omega

theorem second_toNat :
    (((a &&& 0x3) <<< 4) ||| ((b >>> 4) &&& 0xf)).toNat = a.toNat % 4 * 16 + b.toNat / 16 := by
  have hlt := b.toNat_lt
  have hlow : a.toNat &&& 0x3 = a.toNat % 4 := Nat.and_two_pow_sub_one_eq_mod _ 2
  have hhigh : b.toNat / 16 &&& 0xf = b.toNat / 16 % 16 := Nat.and_two_pow_sub_one_eq_mod _ 4
  have hor := Nat.shiftLeft_add_eq_or_of_lt (show b.toNat / 16 < 2 ^ 4 by omega) (a.toNat % 4)
  rw [Nat.shiftLeft_eq] at hor
  simp only [UInt8.toNat_or, UInt8.toNat_and, UInt8.toNat_shiftLeft, UInt8.toNat_shiftRight,
    UInt8.reduceToNat, Nat.shiftRight_eq_div_pow, Nat.shiftLeft_eq, Nat.reduceMod, Nat.reducePow]
  rw [hlow, hhigh, Nat.mod_eq_of_lt (by omega : b.toNat / 16 < 16),
    Nat.mod_eq_of_lt (by omega : a.toNat % 4 * 16 < 256)]
  exact hor.symm

theorem third_toNat :
    (((b &&& 0xf) <<< 2) ||| ((c >>> 6) &&& 0x3)).toNat = b.toNat % 16 * 4 + c.toNat / 64 := by
  have hlt := c.toNat_lt
  have hlow : b.toNat &&& 0xf = b.toNat % 16 := Nat.and_two_pow_sub_one_eq_mod _ 4
  have hhigh : c.toNat / 64 &&& 0x3 = c.toNat / 64 % 4 := Nat.and_two_pow_sub_one_eq_mod _ 2
  have hor := Nat.shiftLeft_add_eq_or_of_lt (show c.toNat / 64 < 2 ^ 2 by omega) (b.toNat % 16)
  rw [Nat.shiftLeft_eq] at hor
  simp only [UInt8.toNat_or, UInt8.toNat_and, UInt8.toNat_shiftLeft, UInt8.toNat_shiftRight,
    UInt8.reduceToNat, Nat.shiftRight_eq_div_pow, Nat.shiftLeft_eq, Nat.reduceMod, Nat.reducePow]
  rw [hlow, hhigh, Nat.mod_eq_of_lt (by omega : c.toNat / 64 < 4),
    Nat.mod_eq_of_lt (by omega : b.toNat % 16 * 4 < 256)]
  exact hor.symm

theorem fourth_toNat : (c &&& 0x3f).toNat = c.toNat % 64 := by
  rw [UInt8.toNat_and]
  exact Nat.and_two_pow_sub_one_eq_mod _ 6

theorem second_toNat_last : ((a &&& 0x3) <<< 4).toNat = a.toNat % 4 * 16 := by
  have h := second_toNat a 0
  rwa [show ((0 : UInt8) >>> 4) &&& 0xf = 0 from rfl, UInt8.or_zero] at h

theorem third_toNat_last : ((b &&& 0xf) <<< 2).toNat = b.toNat % 16 * 4 := by
  have h := third_toNat b 0
  rwa [show ((0 : UInt8) >>> 6) &&& 0x3 = 0 from rfl, UInt8.or_zero] at h

theorem base64Encode_eq (input : Bytes) : base64Encode input = rfc4648 input := by
  induction input using base64Encode.induct with
  | case1 => rfl
  | case2 a =>
    have ha := a.toNat_lt
    obtain ⟨h3, h2, -, -⟩ := sextet_eq ha (Nat.zero_lt_succ 255) (Nat.zero_lt_succ 255)
    simp only [Nat.zero_mul, Nat.zero_div, Nat.add_zero] at h3 h2
    rw [base64Encode, rfc4648, base64Letter_eq (first_toNat a) (by omega),
      base64Letter_eq (second_toNat_last a) (by omega), h3, h2]
  | case3 a b =>
    have ha := a.toNat_lt
    have hb := b.toNat_lt
    obtain ⟨h3, h2, h1, -⟩ := sextet_eq ha hb (Nat.zero_lt_succ 255)
    simp only [Nat.zero_div, Nat.add_zero] at h3 h2 h1
    rw [base64Encode, rfc4648, base64Letter_eq (first_toNat a) (by omega),
      base64Letter_eq (second_toNat a b) (by omega), base64Letter_eq (third_toNat_last b) (by omega),
      h3, h2, h1]
  | case4 a b c input ih =>
    have ha := a.toNat_lt
    have hb := b.toNat_lt
    have hc := c.toNat_lt
    obtain ⟨h3, h2, h1, h0⟩ := sextet_eq ha hb hc
    rw [base64Encode, rfc4648, base64Letter_eq (first_toNat a) (by omega),
      base64Letter_eq (second_toNat a b) (by omega), base64Letter_eq (third_toNat b c) (by omega),
      base64Letter_eq (fourth_toNat c) (by omega), ih, h3, h2, h1, h0]

end Base64

/-! ## The first window -/

section Windows

variable {pattern bytes : Bytes} {i : ℕ}

theorem windowPosition_eq_none (hpattern : pattern ≠ []) :
    windowPosition pattern bytes = none ↔ ¬pattern <:+: bytes := by
  induction bytes with
  | nil => simp [windowPosition, hpattern]
  | cons byte bytes ih =>
    rw [windowPosition, infix_cons_iff]
    split
    · next h => simp [List.isPrefixOf_iff_prefix.mp h]
    · next h =>
        rw [List.isPrefixOf_iff_prefix] at h
        simp [ih, h]

theorem windowPosition_spec (h : windowPosition pattern bytes = some i) :
    pattern <+: bytes.drop i ∧ ∀ j < i, ¬pattern <+: bytes.drop j := by
  induction bytes generalizing i with
  | nil => cases h
  | cons byte bytes ih =>
    rw [windowPosition] at h
    split at h
    · next hfirst =>
        cases h
        exact ⟨List.isPrefixOf_iff_prefix.mp hfirst, nofun⟩
    · next hfirst =>
        rw [List.isPrefixOf_iff_prefix] at hfirst
        obtain ⟨k, hk, rfl⟩ := map_eq_some_iff.mp h
        obtain ⟨hat, hbefore⟩ := ih hk
        refine ⟨hat, fun j hj => ?_⟩
        cases j with
        | zero => exact hfirst
        | succ j => exact hbefore j (by omega)

theorem le_of_windowPosition (h : windowPosition pattern bytes = some i) {j : ℕ}
    (hj : pattern <+: bytes.drop j) : i ≤ j := by
  by_contra hlt
  exact (windowPosition_spec h).2 j (by omega) hj

theorem windowPosition_zero (hpattern : pattern ≠ []) (h : pattern <+: bytes) :
    windowPosition pattern bytes = some 0 := by
  cases bytes with
  | nil => exact absurd (prefix_nil.mp h) hpattern
  | cons byte bytes => rw [windowPosition, if_pos (List.isPrefixOf_iff_prefix.mpr h)]

theorem windowPosition_append {first : UInt8} {front : Bytes} (hfront : first ∉ front)
    (rest : Bytes) :
    windowPosition (first :: pattern) (front ++ rest) =
      (windowPosition (first :: pattern) rest).map (· + front.length) := by
  induction front with
  | nil => simp
  | cons byte front ih =>
    rw [mem_cons, not_or] at hfront
    obtain ⟨hne, hfront⟩ := hfront
    have hnot : (first :: pattern).isPrefixOf (byte :: (front ++ rest)) = false := by
      simp [isPrefixOf, hne]
    rw [cons_append, windowPosition, hnot, if_neg Bool.false_ne_true, ih hfront, Option.map_map]
    congr 1

end Windows

/-! ## The loop -/

section Loop

variable {digest pin userBytes : Bytes} {fuel i j : ℕ}

theorem keySuffix_eq : keySuffix = ';'.toUInt8 :: keyPrefix := by decide

theorem separator_notMem : ';'.toUInt8 ∉ keyPrefix := by decide

theorem keyPrefix_ne_nil : keyPrefix ≠ [] := by decide

theorem keyPrefix_of_separator (h : windowPosition keySuffix userBytes = some j) :
    keyPrefix <+: userBytes.drop (j + 1) ∧ (userBytes.drop j).head? = some ';'.toUInt8 := by
  obtain ⟨⟨rest, hrest⟩, -⟩ := windowPosition_spec h
  rw [keySuffix_eq, cons_append] at hrest
  rw [← tail_drop, ← hrest]
  exact ⟨prefix_append _ _, rfl⟩

theorem separator_position (hent : windowPosition keyPrefix userBytes = some i)
    (hsep : windowPosition keySuffix userBytes = some j) : i + 8 ≤ j ∨ i = j + 1 := by
  obtain ⟨hnext, hhead⟩ := keyPrefix_of_separator hsep
  have hle := le_of_windowPosition hent hnext
  by_contra hnot
  obtain ⟨rest, hrest⟩ := (windowPosition_spec hent).1
  have hlen : keyPrefix.length = 8 := by decide
  obtain ⟨k, rfl⟩ := Nat.exists_eq_add_of_le (show i ≤ j by omega)
  have hk : k < keyPrefix.length := by omega
  rw [← drop_drop, ← hrest, head?_drop, getElem?_append_left hk] at hhead
  exact separator_notMem (mem_of_getElem? hhead)

/-- The first prefix of a key is not the one inside the first suffix. -/
def SafeStart (pin : Bytes) : Prop :=
  ∀ j, windowPosition keySuffix pin = some j → windowPosition keyPrefix pin ≠ some (j + 1)

variable (digest) in
theorem compareLoop_entry (hsafe : SafeStart userBytes)
    (hent : windowPosition keyPrefix userBytes = some i) :
    ∃ stop rest, i + 8 ≤ stop ∧
      stop = (windowPosition keySuffix userBytes).getD userBytes.length ∧
      rest.length < userBytes.length ∧ SafeStart rest ∧
      (windowPosition keySuffix userBytes = none → rest = []) ∧
      (windowPosition keySuffix userBytes = some stop → rest = userBytes.drop (stop + 1)) ∧
      ∀ fuel, compareLoop digest (fuel + 1) userBytes =
        if (userBytes.take stop).drop (i + 8) = digest then .verified
        else compareLoop digest fuel rest := by
  have hne : userBytes ≠ [] := by
    rintro rfl
    cases hent
  have hpos := length_pos_iff.mpr hne
  cases hsep : windowPosition keySuffix userBytes with
  | none =>
    have hle : i + 8 ≤ userBytes.length := by
      have hat := (windowPosition_spec hent).1.length_le
      have hlen : keyPrefix.length = 8 := by decide
      rw [length_drop, hlen] at hat
      omega
    refine ⟨userBytes.length, [], hle, rfl, hpos, nofun, fun _ => rfl, nofun, fun fuel => ?_⟩
    rw [compareLoop, if_neg hne, hent, hsep]
    dsimp only [getD_none]
    rw [if_neg (by omega)]
    simp
  | some j =>
    have hle : i + 8 ≤ j := by
      rcases separator_position hent hsep with hle | heq
      · exact hle
      · exact absurd (heq ▸ hent) (hsafe j hsep)
    have hnext := (keyPrefix_of_separator hsep).1
    have hlt : j < userBytes.length := by
      by_contra hge
      rw [drop_of_length_le (by omega)] at hnext
      exact keyPrefix_ne_nil (prefix_nil.mp hnext)
    refine ⟨j, userBytes.drop (j + 1), hle, rfl, ?_, ?_, nofun, fun _ => rfl, fun fuel => ?_⟩
    · rw [length_drop]
      omega
    · intro k _ hent'
      rw [windowPosition_zero keyPrefix_ne_nil hnext] at hent'
      cases hent'
    · rw [compareLoop, if_neg hne, hent, hsep]
      dsimp only [getD_some]
      rw [if_neg (by omega), if_pos hlt.ne]

def PinComparison.Ends (r : PinComparison) : Prop := r ≠ .panic ∧ r ≠ .running

theorem compareLoop_ends (hsafe : SafeStart userBytes) (hfuel : userBytes.length < fuel) :
    (compareLoop digest fuel userBytes).Ends := by
  induction fuel generalizing userBytes with
  | zero => exact absurd hfuel (Nat.not_lt_zero _)
  | succ fuel ih =>
    cases hent : windowPosition keyPrefix userBytes with
    | none =>
      rw [compareLoop, hent]
      split <;> exact ⟨nofun, nofun⟩
    | some i =>
      obtain ⟨stop, rest, -, -, hshorter, hrest, -, -, hloop⟩ := compareLoop_entry digest hsafe hent
      rw [hloop]
      split
      · exact ⟨nofun, nofun⟩
      · exact ih hrest (by omega)

theorem compareLoop_panics (hnot : ¬SafeStart userBytes) (fuel : ℕ) :
    compareLoop digest (fuel + 1) userBytes = .panic := by
  rw [SafeStart] at hnot
  push Not at hnot
  obtain ⟨j, hsep, hent⟩ := hnot
  have hne : userBytes ≠ [] := by
    rintro rfl
    cases hent
  rw [compareLoop, if_neg hne, hent, hsep]
  dsimp only [getD_some]
  rw [if_pos (by omega)]

theorem compareLoop_unlisted (h : ¬keyPrefix <:+: userBytes) (fuel : ℕ) :
    compareLoop digest fuel userBytes ≠ .verified := by
  cases fuel with
  | zero => nofun
  | succ fuel =>
    rw [compareLoop, (windowPosition_eq_none keyPrefix_ne_nil).mpr h]
    split <;> nofun

/-! ## Lists of keys -/

/-- `sha256//X1;sha256//X2;...;sha256//Xn`. -/
def pinList : List Bytes → Bytes
  | [] => []
  | [key] => keyPrefix ++ key
  | key :: next :: keys => keyPrefix ++ key ++ ';'.toUInt8 :: pinList (next :: keys)

theorem keyPrefix_pinList (key : Bytes) (keys : List Bytes) :
    ∃ rest, pinList (key :: keys) = keyPrefix ++ (key ++ rest) ∧
      (rest = [] ∧ keys = [] ∨ rest = ';'.toUInt8 :: pinList keys ∧ keys ≠ []) := by
  cases keys with
  | nil => exact ⟨[], by rw [append_nil]; rfl, .inl ⟨rfl, rfl⟩⟩
  | cons next keys => exact ⟨_, append_assoc _ _ _, .inr ⟨rfl, cons_ne_nil _ _⟩⟩

theorem windowPosition_pinList {key : Bytes} (hkey : ';'.toUInt8 ∉ key) (keys : List Bytes) :
    windowPosition keySuffix (pinList (key :: keys)) =
      if keys = [] then none else some (8 + key.length) := by
  have hfront : ';'.toUInt8 ∉ keyPrefix ++ key := by
    rw [mem_append, not_or]
    exact ⟨separator_notMem, hkey⟩
  have hlen : (keyPrefix ++ key).length = 8 + key.length := by
    rw [length_append]
    rfl
  obtain ⟨rest, hlist, ⟨rfl, rfl⟩ | ⟨rfl, hkeys⟩⟩ := keyPrefix_pinList key keys
  · rw [hlist, ← append_assoc, keySuffix_eq, windowPosition_append hfront]
    rfl
  · rw [hlist, ← append_assoc, keySuffix_eq, windowPosition_append hfront, hlen, if_neg hkeys]
    obtain ⟨next, keys, rfl⟩ := exists_cons_of_ne_nil hkeys
    obtain ⟨rest, hnext, -⟩ := keyPrefix_pinList next keys
    have hzero : windowPosition (';'.toUInt8 :: keyPrefix) (';'.toUInt8 :: pinList (next :: keys)) =
        some 0 := by
      apply windowPosition_zero (cons_ne_nil _ _)
      rw [hnext]
      exact ⟨next ++ rest, rfl⟩
    rw [hzero]
    simp

theorem compareLoop_list {keys : List Bytes} (hkeys : ∀ key ∈ keys, ';'.toUInt8 ∉ key)
    (hfuel : (pinList keys).length < fuel) :
    compareLoop digest fuel (pinList keys) = .verified ↔ digest ∈ keys := by
  induction keys generalizing fuel with
  | nil =>
    obtain ⟨n, rfl⟩ := Nat.exists_eq_add_of_lt hfuel
    simp [pinList, compareLoop]
  | cons key keys ih =>
    obtain ⟨n, rfl⟩ := Nat.exists_eq_add_of_lt hfuel
    obtain ⟨tail, hlist, htail⟩ := keyPrefix_pinList key keys
    have hkey := hkeys key (.head _)
    have hsep := windowPosition_pinList hkey keys
    have hent : windowPosition keyPrefix (pinList (key :: keys)) = some 0 :=
      windowPosition_zero keyPrefix_ne_nil ⟨key ++ tail, hlist.symm⟩
    have hsafe : SafeStart (pinList (key :: keys)) := by
      intro j _ hent'
      rw [hent] at hent'
      cases hent'
    obtain ⟨stop, rest, -, hstop, hshorter, -, hnone, hsome, hloop⟩ :=
      compareLoop_entry digest hsafe hent
    have hlen : keyPrefix.length = 8 := by decide
    have hslice : ((pinList (key :: keys)).take (8 + key.length)).drop (0 + 8) = key := by
      rw [hlist, ← hlen, Nat.zero_add, take_length_add_append, drop_left, take_left]
    have hstops : stop = 8 + key.length ∧ rest = pinList keys := by
      rcases htail with ⟨rfl, rfl⟩ | ⟨rfl, hne⟩
      · rw [if_pos rfl] at hsep
        rw [hsep, getD_none, hlist, append_nil, length_append, hlen] at hstop
        exact ⟨hstop, hnone hsep⟩
      · rw [if_neg hne] at hsep
        rw [hsep, getD_some] at hstop
        subst hstop
        refine ⟨rfl, ?_⟩
        rw [hsome hsep, hlist, ← hlen, ← append_assoc, ← length_append,
          ← drop_drop, drop_left, drop_one, tail_cons]
    obtain ⟨rfl, rfl⟩ := hstops
    rw [hloop, hslice]
    have hrest := ih (fun k hk => hkeys k (.tail _ hk))
      (show (pinList keys).length < (pinList (key :: keys)).length + n by omega)
    by_cases heq : key = digest
    · simp [heq]
    · rw [if_neg heq, hrest, mem_cons]
      exact ⟨.inr, fun h => h.resolve_left (Ne.symm heq)⟩

end Loop

/-! ## Pins -/

def IsBase64 (c : UInt8) : Prop := (∃ value < 64, c = letterOf value) ∨ c = '='.toUInt8

theorem separator_not_base64 : ¬IsBase64 ';'.toUInt8 := by
  rintro (⟨value, hlt, heq⟩ | heq)
  · have hall : ∀ value < 64, ';'.toUInt8 ≠ letterOf value := by decide
    exact hall value hlt heq
  · revert heq
    decide

/-- A pin is compared as it should be: the comparison ends, and no slice is out of range; a list
of keys is verified exactly if the digest is one of them; without an entry nothing is. -/
structure ComparesKeys (digest pin : Bytes) : Prop where
  ends : ∀ fuel, pin.length < fuel → (comparePinnedDigest fuel digest pin).Ends
  listed : ∀ keys, keys ≠ [] → (∀ key ∈ keys, ∀ c ∈ key, IsBase64 c) → pin = pinList keys →
    ∀ fuel, pin.length < fuel →
      (comparePinnedDigest fuel digest pin = .verified ↔ rfc4648 digest ∈ keys)
  unlisted : ¬keyPrefix <:+: pin → ∀ fuel, comparePinnedDigest fuel digest pin ≠ .verified

/-- A pin is compared as it should be exactly if no separator is right before its first entry. -/
theorem pin_compared (digest pin : Bytes) : ComparesKeys digest pin ↔ SafeStart pin := by
  constructor
  · intro h
    by_contra hnot
    exact (h.ends (pin.length + 1) (Nat.lt_succ_self _)).1 (compareLoop_panics hnot _)
  · intro hsafe
    refine ⟨fun fuel hfuel => compareLoop_ends hsafe hfuel, ?_, fun h fuel => compareLoop_unlisted h fuel⟩
    rintro keys - hkeys rfl fuel hfuel
    rw [comparePinnedDigest, base64Encode_eq]
    apply compareLoop_list _ hfuel
    intro key hkey hmem
    exact separator_not_base64 (hkeys key hkey _ hmem)

/-- A separator before the first entry. -/
theorem separator_first_panics :
    ¬∀ digest pin : Bytes, digest.length = 32 → ComparesKeys digest pin := by
  intro h
  have hends := (h (replicate 32 0) (str ";sha256//") (by decide)).ends 10 (by decide)
  exact hends.1 (by decide)

end YlongHttp.Client
