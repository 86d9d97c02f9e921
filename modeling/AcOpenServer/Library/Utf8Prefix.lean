import AcOpenServer.Library.Utf8

namespace Library
set_option autoImplicit true

/-- The characters of a byte string, each with the number of bytes it stands for, after
skipping `skip` bytes. -/
def utf8Chunks : List UInt8 → (skip : Nat) → List (Char × Nat)
  | [], _ => []
  | _ :: bs, skip + 1 => utf8Chunks bs skip
  | b :: bs, 0 =>
    let d := utf8DecodeChar (b :: bs)
    d :: utf8Chunks bs (d.2 - 1)

/-- Whether all bytes from the `n`-th on belong to a last character that decodes as U+FFFD
and begins before them. -/
def EndsReplaced (bs : List UInt8) (n : Nat) : Prop :=
  ∃ d ∈ (utf8Chunks bs 0).getLast?, d.1 = '\uFFFD' ∧ bs.length < n + d.2

theorem utf8DecodeFrom_eq_map (bs : List UInt8) (skip : Nat) :
    utf8DecodeFrom bs skip = (utf8Chunks bs skip).map Prod.fst := by
  induction bs generalizing skip with
  | nil => rfl
  | cons b bs ih =>
    cases skip with
    | zero => exact congrArg _ (ih _)
    | succ skip => exact ih skip

theorem utf8Chunks_skip (bs : List UInt8) (skip : Nat) :
    utf8Chunks bs skip = utf8Chunks (bs.drop skip) 0 := by
  induction bs generalizing skip with
  | nil => rw [List.drop_nil]; rfl
  | cons b bs ih =>
    cases skip with
    | zero => rfl
    | succ skip => exact ih skip

theorem utf8DecodeChar_of_encodes (h : String.utf8EncodeChar c <+: bs) :
    utf8DecodeChar bs = (c, c.utf8Size) := by
  obtain ⟨rest, rfl⟩ := h
  exact utf8DecodeChar_encode c rest

theorem utf8DecodeChar_of_not_encodes (h : ∀ c, ¬ String.utf8EncodeChar c <+: bs) :
    utf8DecodeChar bs = ('\uFFFD', maximalSubpart bs) := by
  rw [utf8DecodeChar]
  cases hc : (bs.take 4).toByteArray.utf8DecodeChar? 0 with
  | none => rfl
  | some c =>
    obtain ⟨rest, hrest⟩ := ByteArray.exists_of_utf8DecodeChar?_eq_some hc
    have hlist := congrArg (fun b : ByteArray => b.data.toList) hrest
    simp only [List.data_toByteArray, ByteArray.data_append, Array.toList_append] at hlist
    exact absurd ((List.prefix_append _ _).trans (hlist ▸ List.take_prefix 4 bs)) (h c)

theorem maximalSubpart_pos (bs : List UInt8) : 0 < maximalSubpart bs := by
  unfold maximalSubpart
  split
  · split
    · split <;> omega
    · omega
  · split <;> omega
  · omega

theorem maximalSubpart_le_length (h : bs ≠ []) : maximalSubpart bs ≤ bs.length := by
  have hpos := List.length_pos_of_ne_nil h
  unfold maximalSubpart
  split
  · simp only [List.length_cons]
    split
    · split <;> omega
    · omega
  · simp only [List.length_cons]
    split <;> omega
  · omega

theorem maximalSubpart_le_three (bs : List UInt8) : maximalSubpart bs ≤ 3 := by
  unfold maximalSubpart
  split
  · split
    · split <;> omega
    · omega
  · split <;> omega
  · omega

/-- Cutting a byte string cuts the part a replacement character stands for. -/
theorem maximalSubpart_take (bs : List UInt8) (h : 0 < n) :
    maximalSubpart (bs.take n) = min n (maximalSubpart bs) := by
  match bs, n with
  | [], n + 1 => exact (Nat.min_eq_right (by omega : 1 ≤ n + 1)).symm
  | [a], n + 1 =>
    have htake : [a].take (n + 1) = [a] := List.take_of_length_le (by simp)
    rw [htake]
    exact (Nat.min_eq_right (by omega : 1 ≤ n + 1)).symm
  | a :: b :: bs, 1 => exact (Nat.min_eq_left (maximalSubpart_pos _)).symm
  | [a, b], n + 2 =>
    have hle : maximalSubpart [a, b] ≤ 2 := maximalSubpart_le_length (List.cons_ne_nil _ _)
    have htake : [a, b].take (n + 2) = [a, b] := List.take_of_length_le (by simp)
    rw [htake, Nat.min_eq_right (by omega)]
  | a :: b :: c :: bs, 2 =>
    change maximalSubpart [a, b] = _
    simp only [maximalSubpart]
    cases isSecond a b with
    | false => rfl
    | true => cases (0xF0 ≤ a && isContinuation c) <;> rfl
  | a :: b :: c :: bs, n + 3 =>
    have hle := maximalSubpart_le_three (a :: b :: c :: bs)
    rw [Nat.min_eq_right (by omega)]
    rfl

theorem isSecond_ofNat (hlead : 0xE0 ≤ l) (hlead' : l ≤ 0xF4) (hsecond : 0x80 ≤ s)
    (hsecond' : s ≤ 0xBF) (hE0 : l = 0xE0 → 0xA0 ≤ s) (hED : l = 0xED → s ≤ 0x9F)
    (hF0 : l = 0xF0 → 0x90 ≤ s) (hF4 : l = 0xF4 → s ≤ 0x8F) :
    isSecond (UInt8.ofNat l) (UInt8.ofNat s) = true := by
  have hl : (UInt8.ofNat l).toNat = l := by
    rw [UInt8.toNat_ofNat']
    omega
  have hs : (UInt8.ofNat s).toNat = s := by
    rw [UInt8.toNat_ofNat']
    omega
  simp only [isSecond, isContinuation, ← UInt8.toNat_inj, UInt8.le_iff_toNat_le,
    UInt8.reduceToNat, hl, hs]
  split
  · simp only [Bool.and_eq_true, decide_eq_true_eq]
    omega
  split
  · simp only [Bool.and_eq_true, decide_eq_true_eq]
    omega
  split
  · simp only [Bool.and_eq_true, decide_eq_true_eq]
    omega
  split
  · simp only [Bool.and_eq_true, decide_eq_true_eq]
    omega
  · simp only [Bool.and_eq_true, decide_eq_true_eq]
    omega

theorem utf8Size_le_maximalSubpart (c : Char) (rest : List UInt8) :
    c.utf8Size ≤ maximalSubpart (String.utf8EncodeChar c ++ rest) + 1 := by
  have hpos := maximalSubpart_pos (String.utf8EncodeChar c ++ rest)
  have hvalid : c.val.toNat < 0xD800 ∨ 0xDFFF < c.val.toNat ∧ c.val.toNat < 0x110000 := c.valid
  rcases c.utf8Size_eq with hs | hs | hs | hs
  · omega
  · omega
  · obtain ⟨hlow, hhigh⟩ := Char.utf8Size_eq_three_iff.1 hs
    have hlow' : 0x7FF < c.val.toNat := UInt32.lt_iff_toNat_lt.1 hlow
    have hhigh' : c.val.toNat ≤ 0xFFFF := UInt32.le_iff_toNat_le.1 hhigh
    have hsecond : isSecond (UInt8.ofNat (c.val.toNat / 4096 % 0x10 + 0xE0))
        (UInt8.ofNat (c.val.toNat / 64 % 0x40 + 0x80)) = true := by
      apply isSecond_ofNat <;> omega
    simp only [String.utf8EncodeChar]
    rw [if_neg (by omega), if_neg (by omega), if_pos hhigh']
    simp only [List.cons_append, maximalSubpart]
    rw [if_pos hsecond]
    split <;> omega
  · have hlow' : 0xFFFF < c.val.toNat := UInt32.lt_iff_toNat_lt.1 (Char.utf8Size_eq_four_iff.1 hs)
    have hsecond : isSecond (UInt8.ofNat (c.val.toNat / 262144 % 0x08 + 0xF0))
        (UInt8.ofNat (c.val.toNat / 4096 % 0x40 + 0x80)) = true := by
      apply isSecond_ofNat <;> omega
    have hthird : (0xF0 ≤ UInt8.ofNat (c.val.toNat / 262144 % 0x08 + 0xF0) &&
        isContinuation (UInt8.ofNat (c.val.toNat / 64 % 0x40 + 0x80))) = true := by
      simp only [isContinuation, Bool.and_eq_true, decide_eq_true_eq, UInt8.le_iff_toNat_le,
        UInt8.reduceToNat, UInt8.toNat_ofNat']
      omega
    simp only [String.utf8EncodeChar]
    rw [if_neg (by omega), if_neg (by omega), if_neg (by omega)]
    simp only [List.cons_append, maximalSubpart]
    rw [if_pos hsecond, if_pos hthird]
    omega

theorem encodes_or_not (bs : List UInt8) :
    (∃ c, String.utf8EncodeChar c <+: bs) ∨ ∀ c, ¬ String.utf8EncodeChar c <+: bs := by
  by_cases h : ∃ c, String.utf8EncodeChar c <+: bs
  · exact .inl h
  · exact .inr fun c hc => h ⟨c, hc⟩

theorem utf8DecodeChar_size_pos (bs : List UInt8) : 0 < (utf8DecodeChar bs).2 := by
  obtain ⟨c, hc⟩ | hnone := encodes_or_not bs
  · rw [utf8DecodeChar_of_encodes hc]
    exact c.utf8Size_pos
  · rw [utf8DecodeChar_of_not_encodes hnone]
    exact maximalSubpart_pos bs

theorem utf8DecodeChar_size_le (h : bs ≠ []) : (utf8DecodeChar bs).2 ≤ bs.length := by
  obtain ⟨c, hc⟩ | hnone := encodes_or_not bs
  · rw [utf8DecodeChar_of_encodes hc, ← String.length_utf8EncodeChar]
    exact hc.length_le
  · rw [utf8DecodeChar_of_not_encodes hnone]
    exact maximalSubpart_le_length h

theorem utf8DecodeChar_take (h : (utf8DecodeChar bs).2 ≤ n) :
    utf8DecodeChar (bs.take n) = utf8DecodeChar bs := by
  obtain ⟨c, hc⟩ | hnone := encodes_or_not bs
  · rw [utf8DecodeChar_of_encodes hc] at h ⊢
    apply utf8DecodeChar_of_encodes
    rw [List.prefix_take_iff, String.length_utf8EncodeChar]
    exact ⟨hc, h⟩
  · have hcut : ∀ c, ¬ String.utf8EncodeChar c <+: bs.take n :=
      fun c hc => hnone c (hc.trans (List.take_prefix n bs))
    have hpos := maximalSubpart_pos bs
    rw [utf8DecodeChar_of_not_encodes hnone] at h ⊢
    rw [utf8DecodeChar_of_not_encodes hcut, maximalSubpart_take bs (by omega),
      Nat.min_eq_right h]

/-- Cut within its first character, a byte string is one replacement character. -/
theorem utf8DecodeChar_take_of_lt (hpos : 0 < n) (h : n < (utf8DecodeChar bs).2) :
    utf8DecodeChar (bs.take n) = ('\uFFFD', n) := by
  have hcut : ∀ c, ¬ String.utf8EncodeChar c <+: bs.take n := by
    intro c hc
    obtain ⟨hc, hsize⟩ := List.prefix_take_iff.1 hc
    rw [utf8DecodeChar_of_encodes hc, ← String.length_utf8EncodeChar] at h
    omega
  have hle : n ≤ maximalSubpart bs := by
    obtain ⟨c, hc⟩ | hnone := encodes_or_not bs
    · rw [utf8DecodeChar_of_encodes hc] at h
      obtain ⟨rest, rfl⟩ := hc
      have := utf8Size_le_maximalSubpart c rest
      omega
    · rw [utf8DecodeChar_of_not_encodes hnone] at h
      exact Nat.le_of_lt h
  rw [utf8DecodeChar_of_not_encodes hcut, maximalSubpart_take bs hpos, Nat.min_eq_left hle]

theorem utf8Chunks_of_ne_nil (h : bs ≠ []) :
    utf8Chunks bs 0 = utf8DecodeChar bs :: utf8Chunks (bs.drop (utf8DecodeChar bs).2) 0 := by
  have hpos := utf8DecodeChar_size_pos bs
  cases bs with
  | nil => exact absurd rfl h
  | cons b bs =>
    rw [utf8Chunks, utf8Chunks_skip]
    obtain ⟨k, hk⟩ := Nat.exists_eq_succ_of_ne_zero (Nat.ne_of_gt hpos)
    rw [hk]
    rfl

theorem utf8Chunks_eq_nil : utf8Chunks bs 0 = [] ↔ bs = [] := by
  constructor
  · intro h
    by_contra hne
    rw [utf8Chunks_of_ne_nil hne] at h
    cases h
  · rintro rfl
    rfl

theorem size_le_of_mem_utf8Chunks : ∀ {bs d}, d ∈ utf8Chunks bs 0 → d.2 ≤ bs.length := by
  intro bs
  induction hn : bs.length using Nat.strong_induction_on generalizing bs with
  | _ n ih =>
    intro d hd
    by_cases hne : bs = []
    · subst hne
      cases hd
    · have hpos := utf8DecodeChar_size_pos bs
      have hle := utf8DecodeChar_size_le hne
      rw [utf8Chunks_of_ne_nil hne] at hd
      rcases List.mem_cons.1 hd with rfl | hd
      · omega
      · have hrest := ih _ (by rw [List.length_drop]; omega) rfl hd
        rw [List.length_drop] at hrest
        omega

theorem utf8DecodeFrom_of_ne_nil (h : bs ≠ []) :
    utf8DecodeFrom bs 0 =
      (utf8DecodeChar bs).1 :: utf8DecodeFrom (bs.drop (utf8DecodeChar bs).2) 0 := by
  rw [utf8DecodeFrom_eq_map, utf8DecodeFrom_eq_map, utf8Chunks_of_ne_nil h, List.map_cons]

theorem utf8DecodeFrom_eq_nil : utf8DecodeFrom bs 0 = [] ↔ bs = [] := by
  rw [utf8DecodeFrom_eq_map, List.map_eq_nil_iff, utf8Chunks_eq_nil]

theorem endsReplaced_drop (hsize : (utf8DecodeChar bs).2 ≤ n) (h : n < bs.length) :
    EndsReplaced (bs.drop (utf8DecodeChar bs).2) (n - (utf8DecodeChar bs).2) ↔
      EndsReplaced bs n := by
  have hne : bs ≠ [] := List.ne_nil_of_length_pos (by omega)
  have hlength : (bs.drop (utf8DecodeChar bs).2).length =
      bs.length - (utf8DecodeChar bs).2 := List.length_drop
  have hrest : utf8Chunks (bs.drop (utf8DecodeChar bs).2) 0 ≠ [] := by
    rw [Ne, utf8Chunks_eq_nil]
    exact List.ne_nil_of_length_pos (by omega)
  have hlast : (utf8Chunks bs 0).getLast? =
      (utf8Chunks (bs.drop (utf8DecodeChar bs).2) 0).getLast? := by
    rw [utf8Chunks_of_ne_nil hne, List.getLast?_cons_of_ne_nil hrest]
  unfold EndsReplaced
  rw [hlast, hlength]
  refine exists_congr fun d => and_congr_right fun _ => and_congr_right fun _ => ?_
  omega

theorem endsReplaced_of_lt (hpos : 0 < n) (hlt : n < (utf8DecodeChar bs).2) (hne : bs ≠ []) :
    EndsReplaced bs n ↔
      (utf8DecodeChar bs).1 = '\uFFFD' ∧ bs.drop (utf8DecodeChar bs).2 = [] := by
  have hsize := utf8DecodeChar_size_le hne
  unfold EndsReplaced
  rw [utf8Chunks_of_ne_nil hne]
  constructor
  · rintro ⟨d, hd, hchar, hcut⟩
    cases hrest : utf8Chunks (bs.drop (utf8DecodeChar bs).2) 0 with
    | nil =>
      rw [hrest] at hd
      cases hd
      exact ⟨hchar, utf8Chunks_eq_nil.1 hrest⟩
    | cons e chunks =>
      rw [List.getLast?_cons_of_ne_nil (by rw [hrest]; exact List.cons_ne_nil _ _)] at hd
      have hle := size_le_of_mem_utf8Chunks (List.mem_of_getLast? hd)
      rw [List.length_drop] at hle
      omega
  · rintro ⟨hchar, hrest⟩
    have hlength := congrArg List.length hrest
    rw [List.length_drop, List.length_nil] at hlength
    rw [hrest]
    exact ⟨utf8DecodeChar bs, rfl, hchar, by omega⟩

/-- A byte string decodes like its first bytes only if all others belong to a last character
that decodes as U+FFFD and begins among them. -/
theorem utf8DecodeFrom_take {bs : List UInt8} (h : n < bs.length) :
    utf8DecodeFrom (bs.take n) 0 = utf8DecodeFrom bs 0 ↔ EndsReplaced bs n := by
  induction hl : bs.length using Nat.strong_induction_on generalizing bs n with
  | _ l ih =>
    have hne : bs ≠ [] := List.ne_nil_of_length_pos (by omega)
    have hsize := utf8DecodeChar_size_le hne
    have hsize' := utf8DecodeChar_size_pos bs
    by_cases hzero : n = 0
    · subst hzero
      constructor
      · intro heq
        exact absurd (utf8DecodeFrom_eq_nil.1 heq.symm) hne
      · rintro ⟨d, hd, _, hcut⟩
        have hle := size_le_of_mem_utf8Chunks (List.mem_of_getLast? hd)
        omega
    have hpos : 0 < n := Nat.pos_of_ne_zero hzero
    have htake : bs.take n ≠ [] := by
      apply List.ne_nil_of_length_pos
      rw [List.length_take]
      omega
    rw [utf8DecodeFrom_of_ne_nil htake, utf8DecodeFrom_of_ne_nil hne]
    by_cases hlt : n < (utf8DecodeChar bs).2
    · have hnil : (bs.take n).drop n = [] := List.drop_of_length_le (List.length_take_le n bs)
      rw [endsReplaced_of_lt hpos hlt hne, utf8DecodeChar_take_of_lt hpos hlt, hnil]
      constructor
      · intro heq
        obtain ⟨hchar, hrest⟩ := List.cons.inj heq
        exact ⟨hchar.symm, utf8DecodeFrom_eq_nil.1 hrest.symm⟩
      · rintro ⟨hchar, hrest⟩
        rw [hchar, hrest]
    · have hle : (utf8DecodeChar bs).2 ≤ n := Nat.le_of_not_lt hlt
      have hdrop : (bs.take n).drop (utf8DecodeChar bs).2 =
          (bs.drop (utf8DecodeChar bs).2).take (n - (utf8DecodeChar bs).2) := List.drop_take
      have hrest := ih (bs.drop (utf8DecodeChar bs).2).length
        (by rw [List.length_drop]; omega) (by rw [List.length_drop]; omega :
          n - (utf8DecodeChar bs).2 < (bs.drop (utf8DecodeChar bs).2).length) rfl
      rw [utf8DecodeChar_take hle, hdrop, ← endsReplaced_drop hle h, ← hrest]
      exact ⟨fun heq => (List.cons.inj heq).2, congrArg _⟩

theorem utf8Decode_take {bs : List UInt8} (h : n < bs.length) :
    utf8Decode (bs.take n) = utf8Decode bs ↔ EndsReplaced bs n := by
  rw [← utf8DecodeFrom_take h, utf8Decode, utf8Decode, String.ofList_inj]

theorem utf8Decode_eq_empty : utf8Decode bs = "" ↔ bs = [] := by
  rw [← utf8DecodeFrom_eq_nil, utf8Decode, String.ofList_eq_empty_iff]

end Library
