import YlongHttp.Model.Routes

/-! # Where a request goes

What makes a tunnel, which hosts go around a proxy, and which alternative services are kept. -/

namespace YlongHttp.Client

open List

/-! ## The lines of an answer -/

def lineBreak : Bytes := str "\r\n"

def lineOf : Bytes → Option Bytes
  | b :: b' :: rest =>
    if b = '\r'.toUInt8 ∧ b' = '\n'.toUInt8 then some []
    else (lineOf (b' :: rest)).map (b :: ·)
  | _ => none

variable {buf line entry : Bytes}

theorem lineOf_append (h : lineOf buf = some line) (rest : Bytes) :
    lineOf (buf ++ rest) = some line := by
  induction buf generalizing line with
  | nil => cases h
  | cons b buf ih =>
    cases buf with
    | nil => cases h
    | cons b' buf =>
      rw [lineOf] at h
      rw [cons_append, cons_append, lineOf]
      split_ifs at h ⊢ with hbreak
      · exact h
      · obtain ⟨line, hline, rfl⟩ := Option.map_eq_some_iff.mp h
        have hrest := ih hline
        rw [cons_append] at hrest
        rw [hrest]
        rfl

theorem lineBreak_eq : lineBreak = ['\r'.toUInt8, '\n'.toUInt8] := rfl

theorem lineOf_eq_some_iff :
    lineOf buf = some line ↔ ¬lineBreak <:+: line ∧ ∃ rest, buf = line ++ (lineBreak ++ rest) := by
  induction buf generalizing line with
  | nil =>
    refine iff_of_false nofun ?_
    rintro ⟨-, rest, h⟩
    have hlen := congrArg length h
    simp [lineBreak_eq] at hlen
  | cons b buf ih =>
    cases buf with
    | nil =>
      refine iff_of_false nofun ?_
      rintro ⟨-, rest, h⟩
      have hlen := congrArg length h
      simp [lineBreak_eq] at hlen
      omega
    | cons b' buf =>
      rw [lineOf]
      cases line with
      | nil =>
        have hright : (∃ rest, b :: b' :: buf = [] ++ (lineBreak ++ rest)) ↔
            b = '\r'.toUInt8 ∧ b' = '\n'.toUInt8 := by
          simp [lineBreak_eq]
        rw [hright]
        split_ifs with hbreak
        · simp [hbreak, lineBreak_eq]
        · simp [hbreak]
      | cons c line =>
        have hbreaks : lineBreak <:+: c :: line ↔
            (c = '\r'.toUInt8 ∧ line.head? = some '\n'.toUInt8) ∨ lineBreak <:+: line := by
          rw [infix_cons_iff, lineBreak_eq, cons_prefix_cons]
          have hhead : ['\n'.toUInt8] <+: line ↔ line.head? = some '\n'.toUInt8 := by
            cases line with
            | nil => exact iff_of_false (by simp) (by simp)
            | cons d line => simp [cons_prefix_cons, eq_comm]
          rw [hhead, eq_comm]
        rw [hbreaks]
        split_ifs with hbreak
        · -- The line would begin with the line break, or be cut in it.
          refine iff_of_false nofun ?_
          rintro ⟨hnot, rest, h⟩
          rw [cons_append] at h
          obtain ⟨rfl, htail⟩ := cons.inj h
          cases line with
          | nil =>
            rw [lineBreak_eq] at htail
            have hb' := (cons.inj htail).1
            rw [hbreak.2] at hb'
            exact absurd hb' (by decide)
          | cons d line =>
            have hb' := (cons.inj htail).1
            exact hnot (.inl ⟨hbreak.1, congrArg some (hb'.symm.trans hbreak.2)⟩)
        · rw [Option.map_eq_some_iff]
          constructor
          · rintro ⟨line', hline, h⟩
            obtain ⟨rfl, rfl⟩ := cons.inj h
            obtain ⟨hnot, rest, hrest⟩ := ih.mp hline
            refine ⟨?_, rest, congrArg (b :: ·) hrest⟩
            rintro (⟨hb, hhead⟩ | hin)
            · refine hbreak ⟨hb, ?_⟩
              have hb' := congrArg head? hrest
              rw [head?_append, hhead] at hb'
              exact Option.some.inj hb'
            · exact hnot hin
          · rintro ⟨hnot, rest, h⟩
            rw [cons_append] at h
            obtain ⟨rfl, htail⟩ := cons.inj h
            exact ⟨line, ih.mpr ⟨fun hin => hnot (.inr hin), rest, htail⟩, rfl⟩

theorem boundariesFrom_some (buf : Bytes) (idx lineEnd : ℕ) :
    (boundariesFrom idx (some lineEnd) buf).1 = some lineEnd := by
  generalize hend : some lineEnd = found
  fun_induction boundariesFrom idx found buf with
  | case1 idx found b b' rest hbreak lineEnd' hnext => simp [lineEnd', ← hend]
  | case2 idx found b b' rest hbreak lineEnd' hnot ih =>
    have hsame : found = lineEnd' := by simp [lineEnd', ← hend]
    rw [ih (hend.trans hsame), hsame]
  | case3 idx found b b' rest hbreak ih => exact ih hend
  | case4 => rfl

theorem boundariesFrom_fst (buf : Bytes) : ∀ (idx : ℕ),
    (boundariesFrom idx none buf).1 = (lineOf buf).map (idx + ·.length) := by
  induction buf with
  | nil => exact fun _ => rfl
  | cons b buf ih =>
    intro idx
    cases buf with
    | nil => rfl
    | cons b' buf =>
      rw [boundariesFrom, lineOf]
      split_ifs with hbreak hnext
      · rfl
      · exact boundariesFrom_some _ _ _
      · rw [ih]
        simp only [Option.map_map]
        congr 1
        funext line
        simp only [Function.comp_apply, length_cons]
        omega

theorem boundariesFrom_snd (buf : Bytes) (idx : ℕ) (lineEnd : Option ℕ) :
    (boundariesFrom idx lineEnd buf).2.isSome = true ↔ lineBreak ++ lineBreak <:+: buf := by
  have hstarts (b b' : UInt8) (rest : Bytes) : lineBreak ++ lineBreak <+: b :: b' :: rest ↔
      (b = '\r'.toUInt8 ∧ b' = '\n'.toUInt8) ∧ rest.take 2 = lineBreak := by
    have htake : rest.take 2 = lineBreak ↔ lineBreak <+: rest := by
      rw [prefix_iff_eq_take, eq_comm]
      rfl
    rw [htake, lineBreak_eq, cons_append, cons_append, nil_append,
      cons_prefix_cons, cons_prefix_cons, ← lineBreak_eq, and_assoc, eq_comm, eq_comm (a := b')]
  fun_induction boundariesFrom idx lineEnd buf with
  | case1 idx lineEnd b b' rest hbreak _ hnext =>
    exact iff_of_true rfl ((hstarts b b' rest).mpr ⟨hbreak, hnext⟩).isInfix
  | case2 idx lineEnd b b' rest hbreak _ hnot ih =>
    have hsec : ¬lineBreak ++ lineBreak <+: b' :: rest := by
      intro h
      rw [lineBreak_eq, cons_append, cons_prefix_cons, hbreak.2] at h
      exact absurd h.1 (by decide)
    refine Iff.trans ih ?_
    rw [infix_cons_iff, infix_cons_iff, hstarts]
    tauto
  | case3 idx lineEnd b b' rest hbreak ih =>
    refine Iff.trans ih ?_
    rw [infix_cons_iff (a := b), hstarts]
    tauto
  | case4 buf idx lineEnd hshort =>
    refine iff_of_false nofun fun h => ?_
    have hlen := h.length_le
    rcases buf with _ | ⟨b, _ | ⟨b', rest⟩⟩
    · exact absurd hlen (by decide)
    · exact absurd hlen (Nat.not_le_of_lt (by decide : 1 < 4))
    · exact hshort b b' rest rfl

/-! ## The verdict -/

def Successful (line : Bytes) : Prop :=
  ∃ version ∈ [str "HTTP/1.0", str "HTTP/1.1"], ∃ d d' : UInt8, ∃ reason : Bytes,
    isAsciiDigit d = true ∧ isAsciiDigit d' = true ∧
      (reason = [] ∨ reason.head? = some ' '.toUInt8) ∧
      line = version ++ ' '.toUInt8 :: '2'.toUInt8 :: d :: d' :: reason

/-- What can be said of an answer that begins so, if anything. -/
def settled (buf : Bytes) : Option (Except CreateTunnelErr Unit) :=
  (lineOf buf).bind fun line =>
    match statusCode line with
    | .error e => some (.error e)
    | .ok code =>
      if code.head? = some '2'.toUInt8 then
        if lineBreak ++ lineBreak <:+: buf then some (.ok ()) else none
      else if code = str "407" then some (.error .proxyAuthenticationRequired)
      else some (.error .unsuccessful)

theorem settled_append {verdict : Except CreateTunnelErr Unit} (h : settled buf = some verdict)
    (rest : Bytes) : settled (buf ++ rest) = some verdict := by
  obtain ⟨line, hline, hverdict⟩ := Option.bind_eq_some_iff.mp h
  rw [settled, lineOf_append hline rest, Option.bind_some]
  cases hstat : statusCode line with
  | error e =>
    rw [hstat] at hverdict
    exact hverdict
  | ok code =>
    rw [hstat] at hverdict
    simp only at hverdict ⊢
    by_cases hcode : code.head? = some '2'.toUInt8
    · rw [if_pos hcode] at hverdict ⊢
      split_ifs at hverdict with hin
      rwa [if_pos (hin.trans (prefix_append buf rest).isInfix)]
    · rwa [if_neg hcode] at hverdict ⊢

theorem parseTunnelResponse_eq (buf : Bytes) :
    parseTunnelResponse buf =
      match settled buf with
      | some (.ok ()) => .ok .complete
      | some (.error e) => .error e
      | none =>
        if maxTunnelResponseSize ≤ buf.length then .error .proxyHeadersTooLong
        else .ok .incomplete := by
  have hfst := boundariesFrom_fst buf 0
  have hsnd := boundariesFrom_snd buf 0 none
  rw [parseTunnelResponse, responseBoundaries, settled]
  generalize boundariesFrom 0 none buf = found at hfst hsnd
  obtain ⟨lineEnd, headerEnd⟩ := found
  simp only at hfst hsnd
  subst hfst
  cases hline : lineOf buf with
  | none => rfl
  | some line =>
    obtain ⟨-, rest, hbuf⟩ := lineOf_eq_some_iff.mp hline
    have htake : buf.take line.length = line := by rw [hbuf, take_left]
    simp only [Option.map_some, Nat.zero_add, htake, Option.bind_some]
    cases statusCode line with
    | error e => rfl
    | ok code =>
      simp only
      by_cases hcode : code.head? = some '2'.toUInt8
      · rw [if_pos hcode, if_pos hcode]
        by_cases hin : lineBreak ++ lineBreak <:+: buf
        · rw [if_pos (hsnd.mpr hin), if_pos hin]
        · rw [if_neg fun h => hin (hsnd.mp h), if_neg hin]
      · rw [if_neg hcode, if_neg hcode]
        split_ifs <;> rfl

def verdict (reply : Bytes) : Except CreateTunnelErr Unit :=
  match settled (reply.take maxTunnelResponseSize) with
  | some verdict => verdict
  | none =>
    if maxTunnelResponseSize ≤ reply.length then .error .proxyHeadersTooLong
    else .error .unsuccessful

theorem tunnel_eq_verdict {parts : List Bytes} (hparts : ∀ part ∈ parts, part ≠ []) :
    ∀ {buf : Bytes}, buf.length < maxTunnelResponseSize → settled buf = none →
      tunnel buf parts = verdict (buf ++ parts.flatten) := by
  induction parts with
  | nil =>
    intro buf hlen hsettled
    rw [flatten_nil, append_nil, verdict, take_of_length_le hlen.le, hsettled]
    exact (if_neg (Nat.not_le_of_lt hlen)).symm
  | cons part parts ih =>
    intro buf hlen hsettled
    have hpart := length_pos_iff.mpr (hparts part (.head _))
    generalize hread : part.take (maxTunnelResponseSize - buf.length) = read
    have hsize : read.length = min (maxTunnelResponseSize - buf.length) part.length := by
      rw [← hread, length_take]
    have hnext : (buf ++ read).length = buf.length + read.length := length_append
    -- What has been read is a beginning of what counts.
    have hrest : (buf ++ (part :: parts).flatten).take maxTunnelResponseSize =
        buf ++ read ++ parts.flatten.take (maxTunnelResponseSize - buf.length - part.length) := by
      rw [flatten_cons, take_append, take_of_length_le hlen.le, take_append, hread, append_assoc]
    rw [tunnel, hread, if_neg (by omega), parseTunnelResponse_eq]
    cases hsettled' : settled (buf ++ read) with
    | some found =>
      rw [verdict, hrest, settled_append hsettled' _]
      rcases found with e | ⟨⟩ <;> rfl
    | none =>
      by_cases hfull : maxTunnelResponseSize ≤ (buf ++ read).length
      · have hwhole := congrArg length hrest
        have hle := length_take_le maxTunnelResponseSize (buf ++ (part :: parts).flatten)
        rw [length_append] at hwhole
        have hnil := eq_nil_of_length_eq_zero
          (show (parts.flatten.take (maxTunnelResponseSize - buf.length -
            part.length)).length = 0 by omega)
        rw [hnil, append_nil] at hrest
        have hlong : maxTunnelResponseSize ≤ (buf ++ (part :: parts).flatten).length := by
          have hmin := congrArg length hrest
          rw [length_take] at hmin
          omega
        simp only [hfull, if_true, verdict, hrest, hsettled', hlong]
      · have hsame : read = part := by
          rw [← hread]
          exact take_of_length_le (by omega)
        simp only [hfull, if_false, if_neg (show (buf ++ read).length ≠ maxTunnelResponseSize by
          omega)]
        rw [ih (fun p hp => hparts p (.tail _ hp)) (by omega) hsettled', hsame,
          flatten_cons, append_assoc]

theorem statusCode_append {version : Bytes}
    (hver : version = str "HTTP/1.1 " ∨ version = str "HTTP/1.0 ") (c d d' : UInt8)
    (reason : Bytes) :
    statusCode (version ++ c :: d :: d' :: reason) =
      if reason = [] ∨ reason.head? = some ' '.toUInt8 then
        if [c, d, d'].all isAsciiDigit then .ok [c, d, d'] else .error .unsuccessful
      else .error .unsuccessful := by
  have hlen : version.length = 9 := by rcases hver with rfl | rfl <;> rfl
  have hpre : str "HTTP/1.1 " <+: version ++ c :: d :: d' :: reason ∨
      str "HTTP/1.0 " <+: version ++ c :: d :: d' :: reason := by
    rcases hver with rfl | rfl
    · exact .inl (prefix_append _ _)
    · exact .inr (prefix_append _ _)
  have hget : (version ++ c :: d :: d' :: reason)[12]? = reason.head? := by
    rw [getElem?_append_right (by omega), hlen, head?_eq_getElem?]
    rfl
  have hdrop : (version ++ c :: d :: d' :: reason).drop 9 = c :: d :: d' :: reason := by
    rw [← hlen, drop_left]
  have htotal : (version ++ c :: d :: d' :: reason).length = 12 + reason.length := by
    simp only [length_append, length_cons, hlen]
    omega
  rw [statusCode, htotal, if_neg (fun h => h.elim (by omega) fun h => h hpre), hget, hdrop]
  cases reason with
  | nil => simp
  | cons r reason =>
    by_cases hr : r = ' '.toUInt8
    · simp [hr]
    · simp [hr]

theorem statusCode_two_iff :
    (∃ code, statusCode line = .ok code ∧ code.head? = some '2'.toUInt8) ↔ Successful line := by
  constructor
  · rintro ⟨code, hcode, htwo⟩
    by_cases hbad : line.length < 12 ∨ ¬(str "HTTP/1.1 " <+: line ∨ str "HTTP/1.0 " <+: line)
    · rw [statusCode, if_pos hbad] at hcode
      cases hcode
    · obtain ⟨hlen, hpre⟩ := not_or.mp hbad
      rw [not_not] at hpre
      obtain ⟨version, hver, rest, rfl⟩ : ∃ version,
          (version = str "HTTP/1.1 " ∨ version = str "HTTP/1.0 ") ∧ version <+: line := by
        rcases hpre with h | h
        · exact ⟨_, .inl rfl, h⟩
        · exact ⟨_, .inr rfl, h⟩
      have hnine : version.length = 9 := by rcases hver with rfl | rfl <;> rfl
      rw [length_append, hnine] at hlen
      rcases rest with _ | ⟨c, _ | ⟨d, _ | ⟨d', reason⟩⟩⟩ <;>
        simp only [length_nil, length_cons] at hlen
      · omega
      · omega
      · omega
      · rw [statusCode_append hver] at hcode
        split_ifs at hcode with hreason hdigits
        obtain rfl := Except.ok.inj hcode
        cases htwo
        simp only [all_cons, all_nil, Bool.and_true, Bool.and_eq_true] at hdigits
        rcases hver with rfl | rfl
        · exact ⟨str "HTTP/1.1", by simp, d, d', reason, hdigits.2.1, hdigits.2.2, hreason, rfl⟩
        · exact ⟨str "HTTP/1.0", by simp, d, d', reason, hdigits.2.1, hdigits.2.2, hreason, rfl⟩
  · rintro ⟨version, hver, d, d', reason, hd, hd', hreason, rfl⟩
    have hline : version ++ ' '.toUInt8 :: '2'.toUInt8 :: d :: d' :: reason =
        (version ++ [' '.toUInt8]) ++ '2'.toUInt8 :: d :: d' :: reason := by simp
    have hspace : version ++ [' '.toUInt8] = str "HTTP/1.1 " ∨
        version ++ [' '.toUInt8] = str "HTTP/1.0 " := by
      rcases mem_pair.mp hver with rfl | rfl
      · exact .inr rfl
      · exact .inl rfl
    refine ⟨['2'.toUInt8, d, d'], ?_, rfl⟩
    rw [hline, statusCode_append hspace, if_pos hreason, if_pos]
    simp only [all_cons, all_nil, hd, hd']
    decide

theorem lineOf_isSome (h : lineBreak <:+: buf) : ∃ line, lineOf buf = some line := by
  obtain ⟨front, back, rfl⟩ := h
  induction front with
  | nil => exact ⟨[], by rw [nil_append, lineBreak_eq]; exact if_pos ⟨rfl, rfl⟩⟩
  | cons b front ih =>
    obtain ⟨line, hline⟩ := ih
    rw [cons_append, cons_append]
    generalize front ++ lineBreak ++ back = rest at hline
    cases rest with
    | nil => cases hline
    | cons b' rest =>
      rw [lineOf, hline]
      split_ifs
      · exact ⟨[], rfl⟩
      · exact ⟨b :: line, rfl⟩

theorem settled_ok_iff :
    settled buf = some (.ok ()) ↔
      (∃ line, lineOf buf = some line ∧ Successful line) ∧ lineBreak ++ lineBreak <:+: buf := by
  constructor
  · intro h
    obtain ⟨line, hline, hverdict⟩ := Option.bind_eq_some_iff.mp h
    cases hstat : statusCode line with
    | error e => simp [hstat] at hverdict
    | ok code =>
      simp only [hstat] at hverdict
      split_ifs at hverdict with hcode hin
      · exact ⟨⟨line, hline, statusCode_two_iff.mp ⟨code, hstat, hcode⟩⟩, hin⟩
      · cases hverdict
      · cases hverdict
  · rintro ⟨⟨line, hline, hsuccess⟩, hin⟩
    obtain ⟨code, hstat, hcode⟩ := statusCode_two_iff.mpr hsuccess
    rw [settled, hline, Option.bind_some, hstat]
    simp only [hcode, if_true, hin]

theorem verdict_ok_iff {reply : Bytes} :
    verdict reply = .ok () ↔
      (∃ line rest, reply = line ++ (lineBreak ++ rest) ∧ ¬lineBreak <:+: line ∧ Successful line) ∧
      lineBreak ++ lineBreak <:+: reply.take maxTunnelResponseSize := by
  have hverdict : verdict reply = .ok () ↔
      settled (reply.take maxTunnelResponseSize) = some (.ok ()) := by
    rw [verdict]
    cases settled (reply.take maxTunnelResponseSize) with
    | some found => simp
    | none =>
      simp only
      split_ifs <;> exact iff_of_false nofun nofun
  rw [hverdict, settled_ok_iff]
  refine and_congr_left fun hin => ?_
  obtain ⟨line', hline'⟩ := lineOf_isSome
    ((prefix_append lineBreak lineBreak).isInfix.trans hin)
  have hreply := lineOf_append hline' (reply.drop maxTunnelResponseSize)
  rw [take_append_drop] at hreply
  constructor
  · rintro ⟨line, hline, hsuccess⟩
    cases hline'.symm.trans hline
    obtain ⟨hnot, rest, hrest⟩ := lineOf_eq_some_iff.mp hreply
    exact ⟨line', rest, hrest, hnot, hsuccess⟩
  · rintro ⟨line, rest, hrest, hnot, hsuccess⟩
    have hline := lineOf_eq_some_iff.mpr ⟨hnot, rest, hrest⟩
    cases hreply.symm.trans hline
    exact ⟨line', hline', hsuccess⟩

/-- Where the answer of the proxy is cut makes no difference, and there is a tunnel exactly if
its status line is one of success and the headers end in time. -/
theorem tunnel_verdict {parts : List Bytes} (hparts : ∀ part ∈ parts, part ≠ []) :
    (∀ parts' : List Bytes, (∀ part ∈ parts', part ≠ []) → parts'.flatten = parts.flatten →
      tunnel [] parts' = tunnel [] parts) ∧
    (tunnel [] parts = .ok () ↔
      (∃ line rest, parts.flatten = line ++ (lineBreak ++ rest) ∧ ¬lineBreak <:+: line ∧
        Successful line) ∧
      lineBreak ++ lineBreak <:+: parts.flatten.take maxTunnelResponseSize) := by
  have htunnel {parts : List Bytes} (hparts : ∀ part ∈ parts, part ≠ []) :
      tunnel [] parts = verdict parts.flatten :=
    tunnel_eq_verdict hparts (by decide) rfl
  refine ⟨fun parts' hparts' heq => ?_, ?_⟩
  · rw [htunnel hparts', htunnel hparts, heq]
  · rw [htunnel hparts]
    exact verdict_ok_iff

theorem tunnel_verdict_cut :
    (∀ parts' : List Bytes, (∀ part ∈ parts', part ≠ []) →
      parts'.flatten = [str "HTTP/1.1 2", str "00 OK\r\n\r\n"].flatten →
      tunnel [] parts' = tunnel [] [str "HTTP/1.1 2", str "00 OK\r\n\r\n"]) ∧
    (tunnel [] [str "HTTP/1.1 2", str "00 OK\r\n\r\n"] = .ok () ↔
      (∃ line rest, [str "HTTP/1.1 2", str "00 OK\r\n\r\n"].flatten = line ++ (lineBreak ++ rest) ∧
        ¬lineBreak <:+: line ∧ Successful line) ∧
      lineBreak ++ lineBreak <:+:
        [str "HTTP/1.1 2", str "00 OK\r\n\r\n"].flatten.take maxTunnelResponseSize) :=
  tunnel_verdict (by decide)

/-! ## Hosts without a proxy -/

section NoProxy

variable {Ip : Type} [DecidableEq Ip] {parseIp : Bytes → Option Ip}

open NoProxy

/-- The entry as a suffix of a host, with a dot in front. -/
def dotted (entry : Bytes) : Bytes :=
  if (unstarred entry).head? = some '.'.toUInt8 then unstarred entry
  else '.'.toUInt8 :: unstarred entry

/-- The entry exempts the host; `name` is the host of the entry as a URI. -/
def NamesHost (entry name host : Bytes) : Prop :=
  entry = str "*" ∨ (name = host ∧ host <:+ unstarred entry) ∨
    trimMatches '.'.toUInt8 (unstarred entry) = host ∨ dotted entry <:+ host

def HasHost (entry name : Bytes) : Prop :=
  ∃ uri, Uri.fromBytes entry = .ok uri ∧ uri.host = some name

/-- The hosts that need no proxy. -/
def Exempt (parseIp : Bytes → Option Ip) (entries : List Bytes) (host : Bytes) : Prop :=
  match parseIp host with
  | some ip => ∃ entry ∈ entries, entry = str "*" ∨
      ∃ name, HasHost entry name ∧ parseIp name = some ip
  | none => ∃ entry ∈ entries, ∃ name, HasHost entry name ∧ parseIp name = none ∧
      NamesHost entry name host

/-- No entry ends in the host by chance, and where the host is an address, no entry is a star. -/
structure Unmistaken (parseIp : Bytes → Option Ip) (entries : List Bytes) (host : Bytes) :
    Prop where
  ending : parseIp host = none → ∀ entry ∈ entries, ∀ name, HasHost entry name →
    host <:+ unstarred entry → name = host ∨ trimMatches '.'.toUInt8 (unstarred entry) = host
  star : parseIp host ≠ none → str "*" ∉ entries

theorem unstarred_eq_star_iff : unstarred entry = str "*" ↔ entry = str "*" := by
  rw [unstarred]
  split_ifs with hstar
  · refine iff_of_false (fun h => ?_) fun h => absurd hstar.2 (by rw [h]; decide)
    have hreverse := congrArg reverse h
    rw [trimMatches, reverse_reverse] at hreverse
    have hhead := head?_dropWhile_not (fun b => decide (b = '*'.toUInt8))
      (entry.dropWhile fun b => decide (b = '*'.toUInt8)).reverse
    rw [hreverse] at hhead
    exact absurd (show decide ('*'.toUInt8 = '*'.toUInt8) = false from hhead) (by decide)
  · rfl

theorem dot_suffix_iff {domain part : Bytes} (hsuffix : part <:+ domain) (hne : part ≠ domain) :
    domain[domain.length - part.length - 1]? = some '.'.toUInt8 ↔
      '.'.toUInt8 :: part <:+ domain := by
  obtain ⟨front, rfl⟩ := hsuffix
  rcases eq_nil_or_concat front with rfl | ⟨front, b, rfl⟩
  · exact absurd rfl hne
  · have hlen : (front ++ [b] ++ part).length - part.length - 1 = front.length := by
      simp only [length_append, length_singleton]
      omega
    have hget : (front ++ [b] ++ part)[front.length]? = some b := by simp
    rw [concat_eq_append, hlen, hget, Option.some_inj]
    constructor
    · rintro rfl
      exact ⟨front, by simp⟩
    · rintro ⟨front', h⟩
      have hsplit : front' ++ ['.'.toUInt8] = front ++ [b] := by
        have happ : front' ++ ['.'.toUInt8] ++ part = front ++ [b] ++ part := by
          rw [← h, append_assoc]
          rfl
        exact append_cancel_right happ
      exact ((append_inj' hsplit rfl).2 |> cons.inj).1.symm

theorem blocks_iff (domain entry : Bytes) :
    blocks domain entry = true ↔ entry = str "*" ∨ domain <:+ unstarred entry ∨
      trimMatches '.'.toUInt8 (unstarred entry) = domain ∨ dotted entry <:+ domain := by
  have hstar : unstarred entry = str "*" ↔ entry = str "*" := unstarred_eq_star_iff
  rw [blocks, dotted]
  generalize unstarred entry = part at hstar
  by_cases hnear : part = str "*" ∨ domain <:+ part ∨ part = domain ∨
      trimMatches '.'.toUInt8 part = domain
  · simp only [hnear, if_true, true_iff]
    rcases hnear with h | h | h | h
    · exact .inl (hstar.mp h)
    · exact .inr (.inl h)
    · exact .inr (.inl (h ▸ suffix_refl part))
    · exact .inr (.inr (.inl h))
  · simp only [hnear, if_false]
    obtain ⟨hnot, hsuffix, hne, hbare⟩ : entry ≠ str "*" ∧ ¬domain <:+ part ∧ part ≠ domain ∧
        trimMatches '.'.toUInt8 part ≠ domain := by tauto
    simp only [hnot, hsuffix, hbare, false_or]
    by_cases hpart : part <:+ domain
    · rw [if_pos hpart, Bool.or_eq_true, decide_eq_true_eq, decide_eq_true_eq,
        dot_suffix_iff hpart hne]
      by_cases hdot : part.head? = some '.'.toUInt8
      · simp [hdot, hpart]
      · simp [hdot]
    · refine iff_of_false (by simp [hpart]) fun h => hpart ?_
      split_ifs at h
      · exact h
      · exact (suffix_cons _ part).trans h

theorem hasHost_iff {entry name : Bytes} {uri : Uri} (huri : Uri.fromBytes entry = .ok uri) :
    HasHost entry name ↔ uri.host = some name := by
  constructor
  · rintro ⟨uri', huri', hname⟩
    obtain rfl := Except.ok.inj (huri.symm.trans huri')
    exact hname
  · exact fun hname => ⟨uri, huri, hname⟩

omit [DecidableEq Ip] in
theorem addHosts_ok {hosts : List Bytes}
    (hhosts : ∀ host ∈ hosts, ∀ uri, Uri.fromBytes host = .ok uri → uri.host ≠ none) :
    ∀ self : NoProxy Ip, ∃ result, addHosts parseIp self hosts = some result ∧
      (∀ ip, ip ∈ result.ips ↔ ip ∈ self.ips ∨
        ∃ host ∈ hosts, ∃ name, HasHost host name ∧ parseIp name = some ip) ∧
      ∀ domain, domain ∈ result.domains ↔ domain ∈ self.domains ∨
        domain ∈ hosts ∧ ∃ name, HasHost domain name ∧ parseIp name = none := by
  induction hosts with
  | nil => exact fun self => ⟨self, rfl, by simp, by simp⟩
  | cons host hosts ih =>
    intro self
    replace ih := ih fun h hh => hhosts h (.tail host hh)
    rw [addHosts]
    cases haddress : Uri.fromBytes host with
    | error e =>
      obtain ⟨result, hres, hips, hdomains⟩ := ih self
      have hnone : ∀ name, ¬HasHost host name := by
        rintro name ⟨uri, huri, -⟩
        rw [haddress] at huri
        cases huri
      refine ⟨result, hres, fun ip => ?_, fun domain => ?_⟩
      · rw [hips]
        simp [hnone]
      · rw [hdomains, mem_cons]
        by_cases hdomain : domain = host
        · simp [hdomain, hnone]
        · simp [hdomain]
    | ok address =>
      cases hname : address.host with
      | none => exact absurd hname (hhosts host (.head _) address haddress)
      | some name =>
        have hhas (name' : Bytes) : HasHost host name' ↔ name = name' := by
          rw [hasHost_iff haddress, hname, Option.some_inj]
        cases hip : parseIp name with
        | some ip =>
          obtain ⟨result, hres, hips, hdomains⟩ := ih { self with ips := self.ips ++ [ip] }
          refine ⟨result, by simp only [hname, hip, hres], fun ip' => ?_, fun domain => ?_⟩
          · rw [hips]
            simp [hhas, hip, or_assoc, eq_comm]
          · rw [hdomains, mem_cons]
            by_cases hdomain : domain = host
            · simp [hdomain, hhas, hip]
            · simp [hdomain]
        | none =>
          obtain ⟨result, hres, hips, hdomains⟩ :=
            ih { self with domains := self.domains ++ [host] }
          refine ⟨result, by simp only [hname, hip, hres], fun ip' => ?_, fun domain => ?_⟩
          · rw [hips]
            simp [hhas, hip]
          · rw [hdomains, mem_cons]
            by_cases hdomain : domain = host
            · simp [hdomain, hhas, hip]
            · simp [hdomain]

theorem contain_iff {entries : List Bytes} {noProxy : NoProxy Ip} {host : Bytes}
    (hhost : Unmistaken parseIp entries host)
    (hips : ∀ ip, ip ∈ noProxy.ips ↔
      ∃ entry ∈ entries, ∃ name, HasHost entry name ∧ parseIp name = some ip)
    (hdomains : ∀ domain, domain ∈ noProxy.domains ↔
      domain ∈ entries ∧ ∃ name, HasHost domain name ∧ parseIp name = none) :
    contain parseIp noProxy host = true ↔ Exempt parseIp entries host := by
  rw [contain, Exempt]
  cases hip : parseIp host with
  | some ip =>
    have hstar := hhost.star (by rw [hip]; exact nofun)
    simp only [any_eq_true, decide_eq_true_eq, exists_eq_right']
    rw [hips]
    refine exists_congr fun entry => and_congr_right fun hent => ?_
    rw [or_iff_right]
    rintro rfl
    exact hstar hent
  | none =>
    simp only [containsDomain, any_eq_true, blocks_iff]
    constructor
    · rintro ⟨entry, hent, hblocks⟩
      obtain ⟨hmem, name, hname, hnone⟩ := (hdomains entry).mp hent
      refine ⟨entry, hmem, name, hname, hnone, ?_⟩
      rcases hblocks with h | h | h | h
      · exact .inl h
      · rcases hhost.ending hip entry hmem name hname h with heq | hbare
        · exact .inr (.inl ⟨heq, h⟩)
        · exact .inr (.inr (.inl hbare))
      · exact .inr (.inr (.inl h))
      · exact .inr (.inr (.inr h))
    · rintro ⟨entry, hmem, name, hname, hnone, hnames⟩
      refine ⟨entry, (hdomains entry).mpr ⟨hmem, name, hname, hnone⟩, ?_⟩
      rcases hnames with h | ⟨-, h⟩ | h | h
      · exact .inl h
      · exact .inr (.inl h)
      · exact .inr (.inr (.inl h))
      · exact .inr (.inr (.inr h))

/-- Where each entry that is a URI has a host, the setting is read, and it exempts the hosts that
its entries name. -/
theorem exempts_iff {noProxy : Bytes}
    (hhosts : ∀ entry ∈ entries noProxy, ∀ uri, Uri.fromBytes entry = .ok uri → uri.host ≠ none) :
    ∃ result, fromStr parseIp noProxy = some result ∧
      ∀ host, Unmistaken parseIp (entries noProxy) host →
        (exempts parseIp result host = true ↔ Exempt parseIp (entries noProxy) host) := by
  rw [fromStr]
  split_ifs with hempty
  · refine ⟨none, rfl, fun host _ => iff_of_false nofun ?_⟩
    have hnone : ∀ name, ¬HasHost [] name := by
      rintro name ⟨uri, huri, -⟩
      cases huri
    have hentries : entries noProxy = [[]] := by
      rw [hempty]
      rfl
    rw [hentries, Exempt]
    cases parseIp host with
    | some ip => simpa [hnone] using (show str "*" ≠ [] by decide)
    | none => simp [hnone]
  · obtain ⟨result, hres, hips, hdomains⟩ : ∃ result,
        addHosts parseIp { ips := [], domains := [] } (entries noProxy) = some result ∧ _ ∧ _ :=
      addHosts_ok hhosts { ips := [], domains := [] }
    refine ⟨some result, by rw [hres]; rfl, fun host hhost => ?_⟩
    exact contain_iff hhost (fun ip => (hips ip).trans (by simp))
      (fun domain => (hdomains domain).trans (by simp))

theorem exempts_iff_star :
    ∃ result, fromStr (fun _ => (none : Option ℕ)) (str "*.example.com") = some result ∧
      ∀ host, Unmistaken (fun _ => (none : Option ℕ)) (entries (str "*.example.com")) host →
        (exempts (fun _ => none) result host = true ↔
          Exempt (fun _ => (none : Option ℕ)) (entries (str "*.example.com")) host) := by
  have hentries : entries (str "*.example.com") = [str "*.example.com"] := by decide
  refine exempts_iff fun entry hent uri huri hnone => ?_
  rw [hentries, mem_singleton] at hent
  have hhost : (Uri.fromBytes (str "*.example.com")).map Uri.host =
      .ok (some (str "*.example.com")) := by decide +kernel
  rw [hent] at huri
  rw [huri, Except.map, hnone] at hhost
  exact absurd hhost (by decide)

/-- The hosts that a setting names, said without the code: those that an entry is equal to, and
those below it. -/
def Listed (parseIp : Bytes → Option Ip) (noProxy host : Bytes) : Prop :=
  ∃ entry ∈ entries noProxy, entry = str "*" ∨ eqIgnoreAsciiCase entry host = true ∨
    (∃ ip, parseIp entry = some ip ∧ parseIp host = some ip) ∨
    ∃ d, (entry = d ∨ entry = '.'.toUInt8 :: d ∨ entry = '*'.toUInt8 :: '.'.toUInt8 :: d) ∧
      ('.'.toUInt8 :: d).map toAsciiLowercase <:+ host.map toAsciiLowercase

/-- A dot in front of a name does not keep the name itself out. -/
theorem exempt_not_listed :
    ¬∀ noProxy host : Bytes, ∃ result,
      fromStr (fun _ => (none : Option ℕ)) noProxy = some result ∧
        (exempts (fun _ => none) result host = true ↔
          Listed (fun _ => (none : Option ℕ)) noProxy host) := by
  intro h
  obtain ⟨result, hres, hiff⟩ := h (str ".example.com") (str "example.com")
  have hread : fromStr (fun _ => (none : Option ℕ)) (str ".example.com") =
      some (some { ips := [], domains := [str ".example.com"] }) := by decide +kernel
  have hentries : entries (str ".example.com") = [str ".example.com"] := by decide
  cases hread.symm.trans hres
  obtain ⟨entry, hent, hlisted⟩ := hiff.mp (by decide)
  rw [hentries, mem_singleton] at hent
  subst hent
  rcases hlisted with hstar | hsame | ⟨ip, hip, -⟩ | ⟨d, hd, hbelow⟩
  · exact absurd hstar (by decide)
  · exact absurd hsame (by decide)
  · cases hip
  · have hlen := hbelow.length_le
    rw [length_map, length_map, length_cons, show (str "example.com").length = 11 from rfl] at hlen
    have hent : (str ".example.com").length = 12 := rfl
    rcases hd with h | h | h
    · rw [h] at hent
      omega
    · rw [h, length_cons] at hent
      omega
    · exact absurd (cons.inj h).1 (by decide)

end NoProxy

end YlongHttp.Client
