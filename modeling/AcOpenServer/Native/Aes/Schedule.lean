import AcOpenServer.Native.Aes.Rounds

namespace AcOpenServer
open Library
set_option autoImplicit true

namespace Native

/-- A word of a key. -/
def keyColumn (key : List UInt8) (i : Nat) : Rijndael.Column :=
  fun r => key.getD (4 * i + r.val) 0

/-- The words of the key schedule. -/
def scheduleWord (nk : Nat) (key : List UInt8) (i : Nat) : Rijndael.Column :=
  Rijndael.expandKey sBox nk (keyColumn key) i

variable {order : ByteOrder} {nk : Nat} {key : List UInt8}

theorem column_loadWord (i : Nat) : column order (loadWord order key (4 * i)) = keyColumn key i := by
  rw [loadWord, column_bytes2word]
  funext r
  fin_cases r <;> rfl

theorem scheduleWord_of_lt (h : i < nk) : scheduleWord nk key i = keyColumn key i :=
  Rijndael.expandKey_of_lt sBox h

theorem scheduleWord_of_le (hnk : 0 < nk) (h : nk ≤ i) :
    scheduleWord nk key i = Rijndael.addColumn (scheduleWord nk key (i - nk))
      (Rijndael.scheduleTerm sBox nk i (scheduleWord nk key (i - 1))) :=
  Rijndael.expandKey_of_le sBox hnk h

theorem rcData_eq : ∀ i < 10, rcData.getD i 0 = Rijndael.rcon i := by decide +kernel

theorem column_tRc (h : i < 10) : column order (tRc order i) = ![Rijndael.rcon i, 0, 0, 0] := by
  rw [← rcData_eq i h]
  exact column_bytes2word order _ 0 0 0

/-- `ls_box` substitutes the bytes of a word, and turns it for `c = 3`. -/
theorem column_lsBox (x : UInt32) :
    column order (lsBox order x 3) =
      Rijndael.subWord sBox (Rijndael.rotWord (column order x)) ∧
    column order (lsBox order x 0) = Rijndael.subWord sBox (column order x) := by
  refine ⟨?_, ?_⟩
  · rw [lsBox, column_fourTables_tFl]
    funext r
    fin_cases r <;> rfl
  · rw [lsBox, column_fourTables_tFl]
    funext r
    fin_cases r <;> rfl

section Words

variable {x y : UInt32}

theorem column_firstWord (hnk : 0 < nk) (j : Nat) (hj : j < 10)
    (hx : column order x = scheduleWord nk key (nk * j))
    (hy : column order y = scheduleWord nk key (nk * j + (nk - 1))) :
    column order (x ^^^ (lsBox order y 3 ^^^ tRc order j)) =
      scheduleWord nk key (nk * j + nk) := by
  have hmod : (nk * j + nk) % nk = 0 := by rw [Nat.add_mod_right, Nat.mul_mod_right]
  have hdiv : (nk * j + nk) / nk - 1 = j := by
    rw [Nat.add_div_right _ hnk, Nat.mul_div_cancel_left j hnk]
    rfl
  rw [scheduleWord_of_le hnk (Nat.le_add_left ..), Rijndael.scheduleTerm, if_pos hmod, hdiv,
    Nat.add_sub_cancel, Nat.add_sub_assoc hnk, column_xor, column_xor, hx, (column_lsBox y).1, hy,
    column_tRc hj]

theorem column_sumWord (j c : Nat) (hc : c + 1 < nk) (hsub : ¬(6 < nk ∧ c + 1 = 4))
    (hx : column order x = scheduleWord nk key (nk * j + (c + 1)))
    (hy : column order y = scheduleWord nk key (nk * j + nk + c)) :
    column order (x ^^^ y) = scheduleWord nk key (nk * j + nk + (c + 1)) := by
  have hmod : (nk * j + nk + (c + 1)) % nk = c + 1 := by
    rw [Nat.add_assoc, Nat.mul_add_mod, Nat.add_mod_left, Nat.mod_eq_of_lt hc]
  have hback : nk * j + nk + (c + 1) - nk = nk * j + (c + 1) := by omega
  rw [scheduleWord_of_le (by omega) (by omega), Rijndael.scheduleTerm, hmod,
    if_neg (Nat.succ_ne_zero c), if_neg hsub, hback, column_xor, hx, hy]
  rfl

theorem column_middleWord (hnk : 6 < nk) (j : Nat)
    (hx : column order x = scheduleWord nk key (nk * j + 4))
    (hy : column order y = scheduleWord nk key (nk * j + nk + 3)) :
    column order (x ^^^ lsBox order y 0) = scheduleWord nk key (nk * j + nk + 4) := by
  have hmod : (nk * j + nk + 4) % nk = 4 := by
    rw [Nat.add_assoc, Nat.mul_add_mod, Nat.add_mod_left, Nat.mod_eq_of_lt (by omega)]
  have hback : nk * j + nk + 4 - nk = nk * j + 4 := by omega
  rw [scheduleWord_of_le (by omega) (by omega), Rijndael.scheduleTerm, hmod,
    if_neg (by decide), if_pos ⟨hnk, rfl⟩, hback, column_xor, hx, (column_lsBox y).2, hy]
  rfl

end Words

/-- The first words of a schedule are those of a key. -/
def Scheduled (order : ByteOrder) (nk : Nat) (key : List UInt8) (n : Nat) (ks : Words 60) : Prop :=
  ∀ i < n, column order (ks.get (Fin.ofNat 60 i)) = scheduleWord nk key i

theorem get_writeWord (ks : Words 60) (w : UInt32) (hn : n < 60) (hi : i < 60) :
    (writeWords ks n [w]).get (Fin.ofNat 60 i) = if n = i then w else ks.get (Fin.ofNat 60 i) := by
  have hget : (ks.set (Fin.ofNat 60 n) w).get (Fin.ofNat 60 i) =
      if n % 60 = i % 60 then w else ks.get (Fin.ofNat 60 i) := Vector.getElem_set ..
  rw [Nat.mod_eq_of_lt hn, Nat.mod_eq_of_lt hi] at hget
  exact hget

theorem Scheduled.writeWords {ks : Words 60} (h : Scheduled order nk key n ks) (ws : List UInt32)
    (hlen : n + ws.length ≤ 60)
    (hws : ∀ j (hj : j < ws.length), column order ws[j] = scheduleWord nk key (n + j)) :
    Scheduled order nk key (n + ws.length) (writeWords ks n ws) := by
  induction ws generalizing n ks with
  | nil => exact h
  | cons w ws ih =>
    rw [List.length_cons] at hlen
    have hfirst : Scheduled order nk key (n + 1) (Native.writeWords ks n [w]) := by
      intro i hi
      rw [get_writeWord ks w (by omega) (by omega)]
      split
      · next heq =>
        rw [← heq]
        exact hws 0 (Nat.zero_lt_succ _)
      · next hne => exact h i (by omega)
    have hrest := ih hfirst (by omega) fun j hj => by
      have hword := hws (j + 1) (Nat.succ_lt_succ hj)
      rw [Nat.add_assoc, Nat.add_comm 1]
      exact hword
    rw [List.length_cons, Nat.add_comm ws.length, ← Nat.add_assoc]
    exact hrest

/-- A turn of the key schedule: the words that were written, and the last of them, from which
the next ones are made. -/
structure Expanding (order : ByteOrder) (nk : Nat) (key : List UInt8) (j : Nat)
    (s : Words nk × Words 60) : Prop where
  scheduled : Scheduled order nk key (nk * j + nk) s.2
  words : ∀ c (h : c < nk), column order (s.1[c]) = scheduleWord nk key (nk * j + c)

theorem getElem_keyWords (h : c < nk) : (keyWords order nk key)[c] = loadWord order key (4 * c) :=
  Vector.getElem_ofFn h

theorem expanding_key (hnk : nk ≤ 60) (ks : Words 60) :
    Expanding order nk key 0 (keyWords order nk key,
      writeWords ks 0 (keyWords order nk key).toList) := by
  have hlen : (keyWords order nk key).toList.length = nk := Vector.length_toList
  have hwords (c : Nat) (h : c < nk) :
      column order ((keyWords order nk key)[c]) = scheduleWord nk key (0 + c) := by
    rw [getElem_keyWords h, column_loadWord, Nat.zero_add, scheduleWord_of_lt h]
  have hnone : Scheduled order nk key 0 ks := fun i hi => absurd hi (Nat.not_lt_zero i)
  have hwritten := hnone.writeWords (keyWords order nk key).toList (by omega) (by
    intro j hj
    rw [hlen] at hj
    rw [Vector.getElem_toList]
    exact hwords j hj)
  rw [hlen] at hwritten
  refine ⟨?_, ?_⟩
  · rw [Nat.mul_zero]
    exact hwritten
  · intro c h
    rw [Nat.mul_zero]
    exact hwords c h

theorem forall_lt_four {P : ∀ n, n < 4 → Prop} (h0 : P 0 (by decide)) (h1 : P 1 (by decide))
    (h2 : P 2 (by decide)) (h3 : P 3 (by decide)) : ∀ n h, P n h := by
  intro n h
  rcases n with _ | _ | _ | _ | n
  · exact h0
  · exact h1
  · exact h2
  · exact h3
  · exact absurd h (Nat.not_lt.2 (Nat.le_add_left 4 n))

theorem Expanding.ke4 {s : Words 4 × Words 60} (h : Expanding order 4 key j s) (hj : j < 10) :
    Expanding order 4 key (j + 1) (ke4 order s j) := by
  have h0 := column_firstWord (by decide) j hj (h.words 0 (by decide)) (h.words 3 (by decide))
  have h1 := column_sumWord j 0 (by decide) (by decide) (h.words 1 (by decide)) h0
  have h2 := column_sumWord j 1 (by decide) (by decide) (h.words 2 (by decide)) h1
  have h3 := column_sumWord j 2 (by decide) (by decide) (h.words 3 (by decide)) h2
  refine ⟨?_, ?_⟩
  · refine h.scheduled.writeWords [_, _, _, _] (by show 4 * j + 4 + 4 ≤ 60; omega) ?_
    exact forall_lt_four h0 h1 h2 h3
  · exact forall_lt_four h0 h1 h2 h3

theorem Expanding.kef6 {s : Words 6 × Words 60} (h : Expanding order 6 key j s) (hj : j < 8) :
    Scheduled order 6 key (6 * j + 6 + 4) (kef6 order s j).2 ∧
      (∀ c (hc : c < 4), column order ((kef6 order s j).1[c]) = scheduleWord 6 key (6 * j + 6 + c)) ∧
      ((kef6 order s j).1.get 4 = s.1.get 4 ∧ (kef6 order s j).1.get 5 = s.1.get 5) := by
  have h0 := column_firstWord (by decide) j (by omega) (h.words 0 (by decide))
    (h.words 5 (by decide))
  have h1 := column_sumWord j 0 (by decide) (by decide) (h.words 1 (by decide)) h0
  have h2 := column_sumWord j 1 (by decide) (by decide) (h.words 2 (by decide)) h1
  have h3 := column_sumWord j 2 (by decide) (by decide) (h.words 3 (by decide)) h2
  refine ⟨?_, ?_, rfl, rfl⟩
  · refine h.scheduled.writeWords [_, _, _, _] (by show 6 * j + 6 + 4 ≤ 60; omega) ?_
    exact forall_lt_four h0 h1 h2 h3
  · exact forall_lt_four h0 h1 h2 h3

theorem Expanding.ke6 {s : Words 6 × Words 60} (h : Expanding order 6 key j s) (hj : j < 8) :
    Expanding order 6 key (j + 1) (ke6 order s j) := by
  obtain ⟨hscheduled, hwords, hfour, hfive⟩ := h.kef6 hj
  have h4 := column_sumWord j 3 (by decide) (by decide)
    (x := (Native.kef6 order s j).1.get 4) (by rw [hfour]; exact h.words 4 (by decide))
    (hwords 3 (by decide))
  have h5 := column_sumWord j 4 (by decide) (by decide)
    (x := (Native.kef6 order s j).1.get 5) (by rw [hfive]; exact h.words 5 (by decide)) h4
  refine ⟨?_, ?_⟩
  · refine hscheduled.writeWords [_, _] (by show 6 * j + 6 + 4 + 2 ≤ 60; omega) ?_
    intro i hi
    match i, hi with
    | 0, _ => exact h4
    | 1, _ => exact h5
  · intro c hc
    match c, hc with
    | 0, _ => exact hwords 0 (by decide)
    | 1, _ => exact hwords 1 (by decide)
    | 2, _ => exact hwords 2 (by decide)
    | 3, _ => exact hwords 3 (by decide)
    | 4, _ => exact h4
    | 5, _ => exact h5

theorem Expanding.kef8 {s : Words 8 × Words 60} (h : Expanding order 8 key j s) (hj : j < 7) :
    Scheduled order 8 key (8 * j + 8 + 4) (kef8 order s j).2 ∧
      (∀ c (hc : c < 4), column order ((kef8 order s j).1[c]) = scheduleWord 8 key (8 * j + 8 + c)) ∧
      ((kef8 order s j).1.get 4 = s.1.get 4 ∧ (kef8 order s j).1.get 5 = s.1.get 5) ∧
      ((kef8 order s j).1.get 6 = s.1.get 6 ∧ (kef8 order s j).1.get 7 = s.1.get 7) := by
  have h0 := column_firstWord (by decide) j (by omega) (h.words 0 (by decide))
    (h.words 7 (by decide))
  have h1 := column_sumWord j 0 (by decide) (by decide) (h.words 1 (by decide)) h0
  have h2 := column_sumWord j 1 (by decide) (by decide) (h.words 2 (by decide)) h1
  have h3 := column_sumWord j 2 (by decide) (by decide) (h.words 3 (by decide)) h2
  refine ⟨?_, ?_, ⟨rfl, rfl⟩, rfl, rfl⟩
  · refine h.scheduled.writeWords [_, _, _, _] (by show 8 * j + 8 + 4 ≤ 60; omega) ?_
    exact forall_lt_four h0 h1 h2 h3
  · exact forall_lt_four h0 h1 h2 h3

theorem Expanding.ke8 {s : Words 8 × Words 60} (h : Expanding order 8 key j s) (hj : j < 6) :
    Expanding order 8 key (j + 1) (ke8 order s j) := by
  obtain ⟨hscheduled, hwords, ⟨hfour, hfive⟩, hsix, hseven⟩ := h.kef8 (by omega)
  have h4 := column_middleWord (by decide) j
    (x := (Native.kef8 order s j).1.get 4) (by rw [hfour]; exact h.words 4 (by decide))
    (hwords 3 (by decide))
  have h5 := column_sumWord j 4 (by decide) (by decide)
    (x := (Native.kef8 order s j).1.get 5) (by rw [hfive]; exact h.words 5 (by decide)) h4
  have h6 := column_sumWord j 5 (by decide) (by decide)
    (x := (Native.kef8 order s j).1.get 6) (by rw [hsix]; exact h.words 6 (by decide)) h5
  have h7 := column_sumWord j 6 (by decide) (by decide)
    (x := (Native.kef8 order s j).1.get 7) (by rw [hseven]; exact h.words 7 (by decide)) h6
  refine ⟨?_, ?_⟩
  · refine hscheduled.writeWords [_, _, _, _] (by show 8 * j + 8 + 4 + 4 ≤ 60; omega) ?_
    exact forall_lt_four h4 h5 h6 h7
  · intro c hc
    match c, hc with
    | 0, _ => exact hwords 0 (by decide)
    | 1, _ => exact hwords 1 (by decide)
    | 2, _ => exact hwords 2 (by decide)
    | 3, _ => exact hwords 3 (by decide)
    | 4, _ => exact h4
    | 5, _ => exact h5
    | 6, _ => exact h6
    | 7, _ => exact h7

theorem expanding_foldl (step : Words nk × Words 60 → Nat → Words nk × Words 60) (n : Nat)
    (hstep : ∀ j < n, ∀ s, Expanding order nk key j s → Expanding order nk key (j + 1) (step s j))
    {s : Words nk × Words 60} (h : Expanding order nk key 0 s) :
    Expanding order nk key n ((List.range n).foldl step s) := by
  induction n with
  | zero => exact h
  | succ n ih =>
    rw [List.range_succ, List.foldl_append]
    exact hstep n (Nat.lt_succ_self n) _ (ih fun j hj => hstep j (Nat.lt_succ_of_lt hj))

/-- A context for a key of `nk` words: its rounds, and the schedule as far as they go. -/
structure KeyedBy (order : ByteOrder) (nk : Nat) (key : List UInt8) (cx : AesCtx) : Prop where
  rounds : cx.inf.get 0 = UInt8.ofNat (nk + 6) * aesBlockSize
  scheduled : Scheduled order nk key (4 * (nk + 7)) cx.ks

theorem keyedBy_aesXiEncryptKey128 (cx : AesCtx) :
    KeyedBy order 4 key (aesXiEncryptKey128 order key cx).2 :=
  ⟨rfl, ((expanding_foldl (ke4 order) 9 (fun _ hj _ h => h.ke4 (by omega))
    (expanding_key (by decide) cx.ks)).ke4 (by decide)).scheduled⟩

theorem keyedBy_aesXiEncryptKey192 (cx : AesCtx) :
    KeyedBy order 6 key (aesXiEncryptKey192 order key cx).2 :=
  ⟨rfl, ((expanding_foldl (ke6 order) 7 (fun _ hj _ h => h.ke6 (by omega))
    (expanding_key (by decide) cx.ks)).kef6 (by decide)).1⟩

theorem keyedBy_aesXiEncryptKey256 (cx : AesCtx) :
    KeyedBy order 8 key (aesXiEncryptKey256 order key cx).2 :=
  ⟨rfl, ((expanding_foldl (ke8 order) 6 (fun _ hj _ h => h.ke8 (by omega))
    (expanding_key (by decide) cx.ks)).kef8 (by decide)).1⟩

end Native

end AcOpenServer
