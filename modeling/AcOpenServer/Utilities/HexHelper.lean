import AcOpenServer.Library.Hex
import AcOpenServer.Runtime

namespace AcOpenServer
open Library
set_option autoImplicit true

namespace HexHelper

def isHex (c : UInt16) : Bool :=
  (0x30 ≤ c && c ≤ 0x39) || (0x61 ≤ c && c ≤ 0x66) || (0x41 ≤ c && c ≤ 0x46)

/-- `IsHex` of a string. -/
def isHexString (str : Utf16) : Bool :=
  if str.length % 2 ≠ 0 then false else str.all isHex

/-- `char.ToUpper`, for the ASCII characters it is called on. -/
def toUpper (c : UInt16) : UInt16 := if 0x61 ≤ c ∧ c ≤ 0x7A then c - 0x20 else c

def cleanInput (input : Utf16) : Utf16 :=
  input.foldl (fun chars c => if isHex c then chars ++ [toUpper c] else chars) []

/-- `Substring`, which is bounds checked. -/
def substring (str : Utf16) (start length : Nat) : Except Exn Utf16 :=
  if start + length ≤ str.length then return (str.drop start).take length
  else throw .argumentOutOfRange

/-- `Convert.ToByte(digits, 16)`, of a string that has no sign and no `0x` in front. -/
def convertToByte (digits : Utf16) : Except Exn UInt8 :=
  if digits = [] then throw .argumentOutOfRange
  else
    match digits.mapM hexValue? with
    | none => throw .format
    | some values =>
      let value := values.foldl (fun value digit => value * 16 + digit) 0
      if value < 256 then return UInt8.ofNat value else throw .overflow

/-- The loop of `HexToBytes`: the bytes from index `i` on, of which `remaining` are left. -/
def hexToBytesFrom (cleanInput : Utf16) : (remaining : Nat) → Nat → Except Exn (List UInt8)
  | 0, _ => return []
  | remaining + 1, i => do
    let byte ← convertToByte (← substring cleanInput (i * 2) 2)
    return byte :: (← hexToBytesFrom cleanInput remaining (i + 1))

def hexToBytes (str : Utf16) : Except Exn (List UInt8) := do
  let clean := cleanInput str
  if clean.length % 2 ≠ 0 then throw (.exception "Hex length was not even.")
  hexToBytesFrom clean (clean.length / 2) 0

def toHex (bytes : List UInt8) : Utf16 :=
  bytes.foldl (fun str b => str ++ hexPair b) []

/-- `bytes[i]`, which is bounds checked. -/
def elementAt (bytes : List UInt8) (i : Nat) : Except Exn UInt8 :=
  match bytes[i]? with
  | some b => return b
  | none => throw .indexOutOfRange

/-- Whether the view starts a new line in front of byte `i`. -/
def startsLine (perLine : Int32) (i : Nat) : Except Exn Bool :=
  if perLine = -1 then return false
  else if perLine = 0 then throw .divideByZero
  else return Int32.ofNat i % perLine = 0

/-- The loop of `ToHexView` from index `i` on, with `remaining` bytes left. -/
def toHexViewFrom (bytes : List UInt8) (perLine : Int32) :
    (remaining : Nat) → Nat → Utf16 → Except Exn Utf16
  | 0, _, str => return str
  | remaining + 1, i, str => do
    let str := if ← startsLine perLine i then str ++ ascii "\n" else str
    let str := str ++ (hexPair (← elementAt bytes i) ++ ascii " ")
    toHexViewFrom bytes perLine remaining (i + 1) str

def toHexView (bytes : List UInt8) (perLine length : Int32) : Except Exn Utf16 := do
  let length := if length = -1 then Int32.ofNat bytes.length else length
  let str ← toHexViewFrom bytes perLine (length - 1).toInt.toNat 0 []
  if 0 < length then return str ++ hexPair (← elementAt bytes (length - 1).toInt.toNat)
  else return str

theorem cleanInput_eq (input : Utf16) : cleanInput input = (input.filter isHex).map toUpper := by
  have hloop : ∀ chars, input.foldl
      (fun chars c => if isHex c then chars ++ [toUpper c] else chars) chars =
        chars ++ (input.filter isHex).map toUpper := by
    induction input with
    | nil =>
      intro chars
      exact (List.append_nil chars).symm
    | cons c input ih =>
      intro chars
      rw [List.foldl_cons, ih]
      cases hc : isHex c with
      | false => simp [hc]
      | true => simp [hc]
  exact hloop []

theorem cleanInput_append (a b : Utf16) : cleanInput (a ++ b) = cleanInput a ++ cleanInput b := by
  simp only [cleanInput_eq, List.filter_append, List.map_append]

theorem length_cleanInput (input : Utf16) : (cleanInput input).length = input.countP isHex := by
  rw [cleanInput_eq, List.length_map, List.countP_eq_length_filter]

theorem isHex_hexDigit (h : n < 16) : isHex (hexDigit n) = true := by
  revert n
  decide

theorem toUpper_hexDigit (h : n < 16) : toUpper (hexDigit n) = hexDigit n := by
  revert n
  decide

theorem isUpperHex_toUpper (h : isHex c = true) : IsUpperHex (toUpper c) := by
  simp only [isHex, Bool.or_eq_true, Bool.and_eq_true, decide_eq_true_eq,
    UInt16.le_iff_toNat_le, UInt16.reduceToNat] at h
  have hupper : (toUpper c).toNat =
      if 0x61 ≤ c.toNat ∧ c.toNat ≤ 0x7A then c.toNat - 0x20 else c.toNat := by
    by_cases hc : 0x61 ≤ c ∧ c ≤ 0x7A
    · have hle : (0x20 : UInt16) ≤ c := UInt16.le_trans (by decide) hc.1
      rw [toUpper, if_pos hc, UInt16.toNat_sub_of_le _ _ hle]
      exact (if_pos hc).symm
    · rw [toUpper, if_neg hc]
      exact (if_neg hc).symm
  obtain ⟨n, hn, hvalue⟩ : ∃ n < 16,
      (toUpper c).toNat = if n < 10 then 0x30 + n else 0x37 + n := by
    rcases h with (hdigit | hlower) | hletter
    · refine ⟨c.toNat - 0x30, by omega, ?_⟩
      rw [hupper, if_neg (by omega), if_pos (by omega)]
      omega
    · refine ⟨c.toNat - 0x57, by omega, ?_⟩
      rw [hupper, if_pos (by omega), if_neg (by omega)]
      omega
    · refine ⟨c.toNat - 0x37, by omega, ?_⟩
      rw [hupper, if_neg (by omega), if_neg (by omega)]
      omega
  refine ⟨n, hn, UInt16.toNat_inj.1 ?_⟩
  rw [toNat_hexDigit hn, hvalue]

theorem isUpperHex_of_mem_cleanInput (h : c ∈ cleanInput input) : IsUpperHex c := by
  rw [cleanInput_eq] at h
  obtain ⟨d, hd, rfl⟩ := List.mem_map.1 h
  exact isUpperHex_toUpper (List.mem_filter.1 hd).2

theorem cleanInput_of_isUpperHex (h : ∀ c ∈ input, IsUpperHex c) : cleanInput input = input := by
  rw [cleanInput_eq]
  induction input with
  | nil => rfl
  | cons c input ih =>
    obtain ⟨n, hn, rfl⟩ := h c List.mem_cons_self
    rw [List.filter_cons_of_pos (isHex_hexDigit hn), List.map_cons, toUpper_hexDigit hn,
      ih fun d hd => h d (List.mem_cons_of_mem _ hd)]

theorem cleanInput_hexText (bs : List UInt8) : cleanInput (hexText bs) = hexText bs :=
  cleanInput_of_isUpperHex fun _ => isUpperHex_of_mem_hexText

theorem cleanInput_hexPair (b : UInt8) : cleanInput (hexPair b) = hexPair b :=
  cleanInput_hexText [b]

theorem convertToByte_pair (hm : m < 16) (hn : n < 16) :
    convertToByte [hexDigit m, hexDigit n] = .ok (UInt8.ofNat (m * 16 + n)) := by
  have hvalues : [hexDigit m, hexDigit n].mapM hexValue? = some [m, n] := by
    simp [hexValue?_hexDigit hm, hexValue?_hexDigit hn]
  have hlt : (0 * 16 + m) * 16 + n < 256 := by omega
  have hvalue : (0 * 16 + m) * 16 + n = m * 16 + n := by omega
  rw [convertToByte, if_neg (by simp), hvalues]
  change (if (0 * 16 + m) * 16 + n < 256 then _ else _) = _
  rw [if_pos hlt]
  change Except.ok (UInt8.ofNat ((0 * 16 + m) * 16 + n)) = _
  rw [hvalue]

theorem hexToBytesFrom_eq (hdigits : ∀ c ∈ digits, IsUpperHex c) :
    ∀ remaining i, digits.length = 2 * (i + remaining) →
      ∃ bs, hexToBytesFrom digits remaining i = .ok bs ∧ hexText bs = digits.drop (i * 2) := by
  intro remaining
  induction remaining with
  | zero =>
    intro i hlength
    exact ⟨[], rfl, (List.drop_of_length_le (by omega)).symm⟩
  | succ remaining ih =>
    intro i hlength
    obtain ⟨bs, hrest, htext⟩ := ih (i + 1) (by omega)
    have hfirst : i * 2 < digits.length := by omega
    have hsecond : i * 2 + 1 < digits.length := by omega
    have hdrop : digits.drop (i * 2) =
        digits[i * 2] :: digits[i * 2 + 1] :: digits.drop (i * 2 + 2) := by
      rw [List.drop_eq_getElem_cons hfirst, List.drop_eq_getElem_cons hsecond]
    obtain ⟨m, hm, hhigh⟩ := hdigits _ (List.getElem_mem hfirst)
    obtain ⟨n, hn, hlow⟩ := hdigits _ (List.getElem_mem hsecond)
    rw [← hhigh, ← hlow] at hdrop
    have hpair : substring digits (i * 2) 2 = .ok [hexDigit m, hexDigit n] := by
      rw [substring, if_pos (by omega), hdrop]
      rfl
    refine ⟨UInt8.ofNat (m * 16 + n) :: bs, ?_, ?_⟩
    · rw [hexToBytesFrom, hpair]
      change (convertToByte [hexDigit m, hexDigit n] >>= _) = _
      rw [convertToByte_pair hm hn]
      change (hexToBytesFrom digits remaining (i + 1) >>= _) = _
      rw [hrest]
      rfl
    · have hcons : hexText (UInt8.ofNat (m * 16 + n) :: bs) =
          hexPair (UInt8.ofNat (m * 16 + n)) ++ hexText bs := rfl
      have hnext : (i + 1) * 2 = i * 2 + 2 := by omega
      rw [hcons, hexPair_ofNat hm hn, htext, hdrop, hnext]
      rfl

theorem hexToBytes_of_even (h : (cleanInput str).length % 2 = 0) :
    ∃ bs, hexToBytes str = .ok bs ∧ hexText bs = cleanInput str := by
  have hdigits : ∀ c ∈ cleanInput str, IsUpperHex c := fun _ => isUpperHex_of_mem_cleanInput
  obtain ⟨bs, hbytes, htext⟩ :=
    hexToBytesFrom_eq hdigits ((cleanInput str).length / 2) 0 (by omega)
  refine ⟨bs, ?_, by simpa using htext⟩
  simp only [hexToBytes]
  rw [if_neg (by omega)]
  exact hbytes

theorem hexToBytes_of_odd (h : (cleanInput str).length % 2 = 1) :
    hexToBytes str = .error (.exception "Hex length was not even.") := by
  simp only [hexToBytes]
  rw [if_pos (by omega)]
  rfl

theorem hexToBytes_of_cleanInput (h : cleanInput str = hexText bs) :
    hexToBytes str = .ok bs := by
  have heven : (cleanInput str).length % 2 = 0 := by
    rw [h, length_hexText]
    omega
  obtain ⟨bs', hbytes, htext⟩ := hexToBytes_of_even heven
  rw [hbytes, hexText_injective (htext.trans h)]

theorem toHex_eq (bytes : List UInt8) : toHex bytes = hexText bytes := by
  have hloop : ∀ str, bytes.foldl (fun str b => str ++ hexPair b) str = str ++ hexText bytes := by
    induction bytes with
    | nil =>
      intro str
      exact (List.append_nil str).symm
    | cons b bytes ih =>
      intro str
      rw [List.foldl_cons, ih, List.append_assoc]
      rfl
  exact hloop []

theorem elementAt_of_lt (h : i < bytes.length) : elementAt bytes i = .ok bytes[i] := by
  rw [elementAt, List.getElem?_eq_getElem h]
  rfl

theorem startsLine_of_ne_zero (h : perLine ≠ 0) (i : Nat) :
    ∃ starts, startsLine perLine i = .ok starts := by
  unfold startsLine
  by_cases hall : perLine = -1
  · exact ⟨false, if_pos hall⟩
  · exact ⟨decide (Int32.ofNat i % perLine = 0), by rw [if_neg hall, if_neg h]; rfl⟩

theorem cleanInput_newLine : cleanInput (ascii "\n") = [] := by decide

theorem cleanInput_blank : cleanInput (ascii " ") = [] := by decide

/-- Whatever lines it starts, the view holds the digits of its bytes and no others. -/
theorem toHexViewFrom_eq (hline : perLine ≠ 0) :
    ∀ remaining i str, i + remaining ≤ bytes.length →
      ∃ view, toHexViewFrom bytes perLine remaining i str = .ok view ∧
        cleanInput view = cleanInput str ++ hexText ((bytes.drop i).take remaining) := by
  intro remaining
  induction remaining with
  | zero =>
    intro i str _
    exact ⟨str, rfl, (List.append_nil _).symm⟩
  | succ remaining ih =>
    intro i str hlength
    have hi : i < bytes.length := by omega
    obtain ⟨starts, hstarts⟩ := startsLine_of_ne_zero hline i
    have hlineless : cleanInput (if starts then str ++ ascii "\n" else str) = cleanInput str := by
      cases starts with
      | false => rfl
      | true =>
        change cleanInput (str ++ ascii "\n") = _
        rw [cleanInput_append, cleanInput_newLine, List.append_nil]
    obtain ⟨view, hview, hclean⟩ := ih (i + 1)
      ((if starts then str ++ ascii "\n" else str) ++ (hexPair bytes[i] ++ ascii " ")) (by omega)
    refine ⟨view, ?_, ?_⟩
    · rw [toHexViewFrom, hstarts]
      change (elementAt bytes i >>= _) = _
      rw [elementAt_of_lt hi]
      exact hview
    · have hcons : hexText ((bytes.drop i).take (remaining + 1)) =
          hexPair bytes[i] ++ hexText ((bytes.drop (i + 1)).take remaining) := by
        rw [List.drop_eq_getElem_cons hi, List.take_succ_cons]
        rfl
      rw [hclean, hcons, cleanInput_append, hlineless, cleanInput_append, cleanInput_hexPair,
        cleanInput_blank, List.append_nil, List.append_assoc]

theorem hexText_take_succ {bytes : List UInt8} (h : k < bytes.length) :
    hexText (bytes.take (k + 1)) = hexText (bytes.take k) ++ hexPair bytes[k] := by
  rw [List.take_succ_eq_append_getElem h, hexText, List.flatMap_append]
  exact congrArg _ (List.append_nil _)

theorem toInt_pred {n : Int32} (h : 0 < n) : (n - 1).toInt = n.toInt - 1 := by
  have hpos := Int32.lt_iff_toInt_lt.1 h
  have hlt := n.toInt_lt
  rw [Int32.toInt_sub, Int32.toInt_one]
  rw [Int32.toInt_zero] at hpos
  exact Int.bmod_eq_of_le_mul_two (by omega) (by omega)

theorem toHexView_eq {n : Int32} (hline : perLine ≠ 0) (hn : 0 ≤ n)
    (hle : n.toInt ≤ bytes.length) :
    ∃ view, toHexView bytes perLine n = .ok view ∧
      cleanInput view = hexText (bytes.take n.toInt.toNat) := by
  have hdefault : n ≠ -1 := by
    rintro rfl
    exact absurd hn (by decide)
  simp only [toHexView]
  rw [if_neg hdefault]
  by_cases hpos : 0 < n
  · have hcount : n.toInt.toNat = (n - 1).toInt.toNat + 1 := by
      have hlt := Int32.lt_iff_toInt_lt.1 hpos
      rw [Int32.toInt_zero] at hlt
      rw [toInt_pred hpos]
      omega
    have hlast : (n - 1).toInt.toNat < bytes.length := by omega
    obtain ⟨view, hview, hclean⟩ :=
      toHexViewFrom_eq hline (n - 1).toInt.toNat 0 [] (by omega : _ ≤ bytes.length)
    refine ⟨view ++ hexPair bytes[(n - 1).toInt.toNat], ?_, ?_⟩
    · rw [hview]
      change (if 0 < n then _ else _) = _
      rw [if_pos hpos, elementAt_of_lt hlast]
      rfl
    · rw [cleanInput_append, hclean, cleanInput_hexPair, hcount, hexText_take_succ hlast]
      rfl
  · have hzero : n = 0 := Int32.le_antisymm (Int32.not_lt.1 hpos) hn
    subst hzero
    exact ⟨[], rfl, rfl⟩

theorem hexToBytes_eq_ok : hexToBytes str = .ok bs ↔ cleanInput str = hexText bs := by
  constructor
  · intro h
    obtain heven | hodd := Nat.mod_two_eq_zero_or_one (cleanInput str).length
    · obtain ⟨bs', hbytes, htext⟩ := hexToBytes_of_even heven
      rw [h] at hbytes
      rw [Except.ok.inj hbytes, htext]
    · rw [hexToBytes_of_odd hodd] at h
      cases h
  · exact hexToBytes_of_cleanInput

/-- The strings `IsHex` accepts are those that write out the bytes they hold. -/
theorem isHexString_iff {str : Utf16} :
    isHexString str = true ↔ ∃ bs, hexToBytes str = .ok bs ∧ toHex bs = str.map toUpper := by
  have hfilter : (str.filter isHex).length ≤ str.length := List.length_filter_le _ _
  simp only [toHex_eq, hexToBytes_eq_ok]
  constructor
  · intro h
    have heven : str.length % 2 = 0 := by
      by_contra hodd
      rw [isHexString, if_pos hodd] at h
      cases h
    rw [isHexString, if_neg (by omega), List.all_eq_true] at h
    have hclean : cleanInput str = str.map toUpper := by
      rw [cleanInput_eq, List.filter_eq_self.2 h]
    obtain ⟨bs, _, htext⟩ := hexToBytes_of_even
      (by rw [hclean, List.length_map, heven] : (cleanInput str).length % 2 = 0)
    exact ⟨bs, htext.symm, htext.trans hclean⟩
  · rintro ⟨bs, htext, hupper⟩
    have hlength := congrArg List.length hupper
    have hkept := congrArg List.length htext
    rw [List.length_map, length_hexText] at hlength
    rw [length_hexText, cleanInput_eq, List.length_map] at hkept
    have hall : ∀ c ∈ str, isHex c = true :=
      List.length_filter_eq_length_iff.1 (by omega)
    rw [isHexString, if_neg (by omega)]
    exact List.all_eq_true.2 hall

theorem hex_round_trips :
    (∀ b, hexToBytes (toHex b) = .ok b) ∧
    (∀ (b : List UInt8) (n perLine : Int32), 0 ≤ n → n.toInt ≤ b.length →
      (perLine = -1 ∨ 1 ≤ perLine) →
        (toHexView b perLine n >>= hexToBytes) = .ok (b.take n.toInt.toNat)) ∧
    ∀ s, ((∃ e, hexToBytes s = .error e) ↔ s.countP isHex % 2 = 1) ∧
      (s.countP isHex % 2 = 0 →
        ∃ b, hexToBytes s = .ok b ∧ toHex b = (s.filter isHex).map toUpper) := by
  refine ⟨?_, ?_, ?_⟩
  · intro b
    rw [toHex_eq]
    exact hexToBytes_of_cleanInput (cleanInput_hexText b)
  · intro b n perLine hn hle hper
    have hline : perLine ≠ 0 := by
      rintro rfl
      exact absurd hper (by decide)
    obtain ⟨view, hview, hclean⟩ := toHexView_eq hline hn hle
    rw [hview]
    exact hexToBytes_of_cleanInput hclean
  · intro s
    have hlength := length_cleanInput s
    refine ⟨?_, ?_⟩
    · constructor
      · rintro ⟨e, he⟩
        by_contra hodd
        obtain ⟨b, hbytes, _⟩ := hexToBytes_of_even (by omega : (cleanInput s).length % 2 = 0)
        rw [hbytes] at he
        cases he
      · intro hodd
        exact ⟨_, hexToBytes_of_odd (by omega)⟩
    · intro heven
      obtain ⟨b, hbytes, htext⟩ := hexToBytes_of_even (by omega : (cleanInput s).length % 2 = 0)
      exact ⟨b, hbytes, by rw [toHex_eq, htext, cleanInput_eq]⟩

theorem hex_round_trips_sample :
    (toHexView [0x0A, 0x2F, 0xC1] 2 2 >>= hexToBytes) = .ok [0x0A, 0x2F] ∧
      ∃ b, hexToBytes (ascii "a-1") = .ok b ∧ toHex b = ascii "A1" :=
  ⟨hex_round_trips.2.1 [0x0A, 0x2F, 0xC1] 2 2 (by decide) (by decide) (by decide),
    (hex_round_trips.2.2 (ascii "a-1")).2 (by decide)⟩

end HexHelper

end AcOpenServer
