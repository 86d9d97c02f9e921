import AcOpenServer.Library.Cut
import AcOpenServer.Native.Cwc.Context

namespace AcOpenServer
open Library
set_option autoImplicit true

namespace Native

theorem storeWord_loadWord (order : ByteOrder) (b0 b1 b2 b3 : UInt8) :
    storeWord order (loadWord order [b0, b1, b2, b3] 0) = [b0, b1, b2, b3] := by
  simp only [storeWord, loadWord, List.getD_cons_zero, List.getD_cons_succ, bval_zero, bval_one,
    bval_two, bval_three]

variable (platform : Platform)

namespace CwcCtx

/-- A byte put into the buffer at a position, and the buffer hashed when that fills it. -/
def feed (s : CwcCtx × Nat) (b : UInt8) : CwcCtx × Nat :=
  if s.2 + 1 = ablkLen then ((s.1.putByte s.2 b).doCwc platform, 0)
  else (s.1.putByte s.2 b, s.2 + 1)

/-- The loops leave a full buffer for the next byte, or for the end. -/
def flush (s : CwcCtx × Nat) : CwcCtx × Nat :=
  if s.2 = ablkLen then (s.1.doCwc platform, 0) else s

variable {platform}

theorem flush_of_lt {s : CwcCtx × Nat} (h : s.2 < ablkLen) : flush platform s = s :=
  if_neg h.ne

variable (platform) in
theorem flush_putByte (ctx : CwcCtx) {p : Nat} (h : p < ablkLen) (b : UInt8) :
    flush platform (ctx.putByte p b, p + 1) = feed platform (flush platform (ctx, p)) b := by
  rw [flush_of_lt (s := (ctx, p)) h, flush, feed]

theorem putBytes_cons (ctx : CwcCtx) (p : Nat) (b : UInt8) (bs : List UInt8) :
    ctx.putBytes p (b :: bs) = (ctx.putByte p b).putBytes (p + 1) bs := rfl

variable (platform) in
theorem flush_putBytes (ctx : CwcCtx) {p : Nat} (bs : List UInt8) (h : p + bs.length ≤ ablkLen) :
    flush platform (ctx.putBytes p bs, p + bs.length) =
      bs.foldl (feed platform) (flush platform (ctx, p)) := by
  induction bs generalizing ctx p with
  | nil => rfl
  | cons b bs ih =>
    rw [List.length_cons] at h
    rw [putBytes_cons, List.length_cons, Nat.add_comm bs.length, ← Nat.add_assoc,
      ih _ (by omega), flush_putByte platform _ (by omega), List.foldl_cons]

end CwcCtx

namespace Filling

/-- The state the data that is left leads to. -/
def total (s : Filling) : CwcCtx × Nat :=
  s.rest.foldl (CwcCtx.feed platform) (CwcCtx.flush platform (s.ctx, s.bPos))

variable {platform}

variable (platform) in
theorem bytesToUnit_spec (ctx : CwcCtx) {bPos : Nat} (h : bPos ≤ ablkLen) (data : List UInt8) :
    (bytesToUnit ctx bPos data).total platform = total platform ⟨ctx, bPos, data⟩ ∧
      (bytesToUnit ctx bPos data).bPos ≤ ablkLen ∧
      ((bytesToUnit ctx bPos data).rest = [] ∨ (bytesToUnit ctx bPos data).bPos % bufInc = 0) := by
  induction data generalizing ctx bPos with
  | nil => exact ⟨rfl, h, .inl rfl⟩
  | cons b rest ih =>
    rw [bytesToUnit]
    split
    · next hunit =>
      have hlt : bPos < ablkLen := by
        unfold ablkLen bufInc at *
        omega
      obtain ⟨htotal, hle, hend⟩ := ih (ctx.putByte bPos b) (by omega : bPos + 1 ≤ ablkLen)
      refine ⟨htotal.trans ?_, hle, hend⟩
      simp only [total]
      rw [CwcCtx.flush_putByte platform ctx hlt, List.foldl_cons]
    · next hunit => exact ⟨rfl, h, .inr (not_ne_iff.1 hunit)⟩

variable (platform) in
theorem units_spec (ctx : CwcCtx) {bPos : Nat} (h : bPos ≤ ablkLen) (data : List UInt8) :
    (units platform ctx bPos data).total platform = total platform ⟨ctx, bPos, data⟩ ∧
      (units platform ctx bPos data).bPos ≤ ablkLen ∧
      ((units platform ctx bPos data).rest.length < bufInc ∨
        ablkLen < (units platform ctx bPos data).bPos + bufInc) ∧
      (units platform ctx bPos data).bPos % bufInc = bPos % bufInc := by
  induction ctx, bPos, data using units.induct platform with
  | case1 ctx bPos b0 b1 b2 b3 rest hle ih =>
    rw [units, if_pos hle]
    rw [storeWord_loadWord] at ih ⊢
    have hlen : bPos + 4 ≤ ablkLen := Nat.add_le_of_le_sub (by decide) hle
    obtain ⟨htotal, hpos, hend, hmod⟩ := ih hlen
    refine ⟨htotal.trans ?_, hpos, hend, hmod.trans (Nat.add_mod_right ..)⟩
    simp only [total]
    exact congrArg (List.foldl _ · rest) (CwcCtx.flush_putBytes platform ctx [b0, b1, b2, b3] hlen)
  | case2 ctx bPos b0 b1 b2 b3 rest hle =>
    rw [units, if_neg hle]
    refine ⟨rfl, h, .inr ?_, rfl⟩
    unfold ablkLen bufInc at *
    dsimp only
    omega
  | case3 ctx bPos data hdata =>
    rw [units]
    · refine ⟨rfl, h, .inl ?_, rfl⟩
      match data with
      | [] => exact (by decide : 0 < 4)
      | [_] => exact (by decide : 1 < 4)
      | [_, _] => exact (by decide : 2 < 4)
      | [_, _, _] => exact (by decide : 3 < 4)
      | b0 :: b1 :: b2 :: b3 :: rest => exact (hdata b0 b1 b2 b3 rest rfl).elim
    · exact hdata

variable (platform) in
theorem bytesToEnd_spec (ctx : CwcCtx) {bPos : Nat} (h : bPos ≤ ablkLen) (data : List UInt8) :
    (bytesToEnd ctx bPos data).total platform = total platform ⟨ctx, bPos, data⟩ ∧
      (bytesToEnd ctx bPos data).bPos ≤ ablkLen ∧
      ((bytesToEnd ctx bPos data).rest = [] ∨ (bytesToEnd ctx bPos data).bPos = ablkLen) := by
  induction data generalizing ctx bPos with
  | nil => exact ⟨rfl, h, .inl rfl⟩
  | cons b rest ih =>
    rw [bytesToEnd]
    split
    · next hlt =>
      obtain ⟨htotal, hle, hend⟩ := ih (ctx.putByte bPos b) (by omega : bPos + 1 ≤ ablkLen)
      refine ⟨htotal.trans ?_, hle, hend⟩
      simp only [total]
      rw [CwcCtx.flush_putByte platform ctx hlt, List.foldl_cons]
    · next hlt => exact ⟨rfl, h, .inr (by dsimp only; omega)⟩

/-- The loop over whole blocks starts with a full buffer, or does not run. -/
theorem blocks_spec (s : Filling) (h : s.bPos = ablkLen ∨ s.rest.length < ablkLen) :
    (s.blocks platform).total platform = s.total platform ∧
      (s.blocks platform).bPos = s.bPos := by
  induction s using blocks.induct platform with
  | case1 s hle ih =>
    have hpos : s.bPos = ablkLen := by omega
    have hlen : 0 + (s.rest.take ablkLen).length = ablkLen := by
      rw [List.length_take, Nat.zero_add, Nat.min_eq_left hle]
    obtain ⟨htotal, hsame⟩ := ih (.inl hpos)
    rw [blocks, if_pos hle]
    refine ⟨htotal.trans ?_, hsame⟩
    have hput := CwcCtx.flush_putBytes platform (s.ctx.doCwc platform)
      (s.rest.take ablkLen) hlen.le
    rw [hlen] at hput
    have hfull : CwcCtx.flush platform (s.ctx, s.bPos) = (s.ctx.doCwc platform, 0) := if_pos hpos
    simp only [total]
    rw [hpos, hput, ← List.foldl_append, List.take_append_drop, ← hpos, hfull,
      CwcCtx.flush_of_lt (by decide : 0 < ablkLen)]
  | case2 s hlt =>
    rw [blocks, if_neg hlt]
    exact ⟨rfl, rfl⟩

theorem tail_spec (ctx : CwcCtx) {bPos : Nat} (h : bPos ≤ ablkLen) (data : List UInt8) :
    CwcCtx.flush platform (tail platform ctx bPos data) = total platform ⟨ctx, bPos, data⟩ := by
  induction data generalizing ctx bPos with
  | nil => rfl
  | cons b rest ih =>
    rw [tail]
    split
    · next hfull =>
      have hput := CwcCtx.flush_putByte platform (ctx.doCwc platform)
        (by decide : 0 < ablkLen) b
      rw [ih _ (by decide : 1 ≤ ablkLen)]
      simp only [total]
      rw [show (1 : Nat) = 0 + 1 from rfl, hput, List.foldl_cons,
        CwcCtx.flush_of_lt (by decide : 0 < ablkLen)]
      simp only [CwcCtx.flush, if_pos hfull]
    · next hfull =>
      rw [ih _ (by omega : bPos + 1 ≤ ablkLen)]
      simp only [total]
      rw [CwcCtx.flush_putByte platform ctx (by omega), List.foldl_cons]

end Filling

/-- Whichever way it goes through the data, the code feeds it byte by byte. -/
theorem absorbData_eq (addr : Int) (data : List UInt8) {bPos : Nat} (h : bPos < ablkLen)
    (ctx : CwcCtx) :
    absorbData platform addr data bPos ctx =
      (data.foldl (CwcCtx.feed platform) (ctx, bPos)).1 := by
  have hstart : Filling.total platform ⟨ctx, bPos, data⟩ =
      data.foldl (CwcCtx.feed platform) (ctx, bPos) :=
    congrArg (List.foldl _ · data) (CwcCtx.flush_of_lt (s := (ctx, bPos)) h)
  have hend (s : CwcCtx × Nat) :
      (if s.2 = ablkLen then s.1.doCwc platform else s.1) = (CwcCtx.flush platform s).1 := by
    rw [CwcCtx.flush]
    split <;> rfl
  have hrun (s : Filling) (hs : s.total platform = Filling.total platform ⟨ctx, bPos, data⟩)
      (hle : s.bPos ≤ ablkLen) (hblocks : s.bPos = ablkLen ∨ s.rest.length < ablkLen) :
      (CwcCtx.flush platform (Filling.tail platform (s.blocks platform).ctx
        (s.blocks platform).bPos (s.blocks platform).rest)).1 =
        (data.foldl (CwcCtx.feed platform) (ctx, bPos)).1 := by
    obtain ⟨htotal, hsame⟩ := Filling.blocks_spec s hblocks
    rw [Filling.tail_spec _ (by rw [hsame]; exact hle), htotal, hs, hstart]
  unfold absorbData
  simp only [hend]
  split
  · obtain ⟨h1, hle1, hend1⟩ := Filling.bytesToUnit_spec platform ctx h.le data
    obtain ⟨h2, hle2, hend2, hmod⟩ := Filling.units_spec platform
      (Filling.bytesToUnit ctx bPos data).ctx hle1 (Filling.bytesToUnit ctx bPos data).rest
    apply hrun _ (h2.trans h1) hle2
    rcases hend1 with hnil | hunit
    · right
      rw [hnil, Filling.units]
      · exact (by decide : 0 < ablkLen)
      · intro b0 b1 b2 b3 rest h
        cases h
    · unfold bufInc at *
      unfold ablkLen at *
      omega
  · obtain ⟨h1, hle1, hend1⟩ := Filling.bytesToEnd_spec platform ctx h.le data
    apply hrun _ h1 hle1
    rcases hend1 with hnil | hfull
    · right
      rw [hnil]
      decide
    · exact .inl hfull

theorem getD_take {bs : List UInt8} (h : i < n) : (bs.take n).getD i 0 = bs.getD i 0 := by
  rw [List.getD_eq_getElem?_getD, List.getD_eq_getElem?_getD, List.getElem?_take_of_lt h]

/-- Only the first twelve bytes of the buffer are hashed. -/
theorem cwcData_take (order : ByteOrder) (buffer : List UInt8) :
    cwcData order (buffer.take ablkLen) = cwcData order buffer := by
  have hload (offset : Nat) (h : offset + 3 < ablkLen) :
      loadWord order (buffer.take ablkLen) offset = loadWord order buffer offset := by
    rw [loadWord, loadWord, getD_take (by omega), getD_take (by omega), getD_take (by omega),
      getD_take h]
  have h0 := hload 0 (by decide)
  have h4 := hload 4 (by decide)
  have h8 := hload 8 (by decide)
  cases order with
  | bigEndian =>
    have h := congr (congrArg₂ (fun a b c => (#v[0, bswap32 a, bswap32 b, bswap32 c] : Words 4))
      h0 h4) h8
    exact h
  | littleEndian =>
    have h := congr (congrArg₂ (fun a b c => (#v[0, a, b, c] : Words 4)) h0 h4) h8
    exact h

theorem cwcIterate_take (order : ByteOrder) (buffer : List UInt8) (zval : Words 4) (hash : Hash) :
    cwcIterate order (buffer.take ablkLen) zval hash = cwcIterate order buffer zval hash := by
  rw [cwcIterate, cwcIterate, cwcData_take]

theorem take_setByte {x : Block n} (h : i < n) (b : UInt8) :
    (setByte x i b).1.take (i + 1) = x.1.take i ++ [b] := by
  have hlen : i < (x.1.set i b).length := by rw [List.length_set, x.2]; exact h
  show (x.1.set i b).take (i + 1) = _
  rw [List.take_succ_eq_append_getElem hlen, List.getElem_set_self, List.take_set_of_le le_rfl]

/-- The hash of blocks, from a hash on. -/
def hashBlocks (order : ByteOrder) (zval : Words 4) (hash : Hash) (blocks : List (List UInt8)) :
    Hash :=
  blocks.foldl (fun hash block => cwcIterate order block zval hash) hash

/-- A context that was fed bytes since it was `fresh`, and where its next byte goes. -/
structure Fed (fresh : CwcCtx) (bs : List UInt8) (s : CwcCtx × Nat) : Prop where
  pos : s.2 = (cutInto ablkLen bs).rest.length
  buffer : s.1.cwcBuf.1.take s.2 = (cutInto ablkLen bs).rest
  ctx : s.1 = { fresh with
    cwcBuf := s.1.cwcBuf
    hash := hashBlocks platform.order fresh.zval fresh.hash (cutInto ablkLen bs).blocks }

variable {platform}

theorem Fed.nil (fresh : CwcCtx) : Fed platform fresh [] (fresh, 0) := ⟨rfl, rfl, rfl⟩

theorem Fed.snoc {fresh : CwcCtx} {s : CwcCtx × Nat} (h : Fed platform fresh bs s) (b : UInt8) :
    Fed platform fresh (bs ++ [b]) (CwcCtx.feed platform s b) := by
  have hlt : s.2 < ablkLen := by
    rw [h.pos, length_rest_cut (by decide)]
    exact Nat.mod_lt _ (by decide)
  have hput : (s.1.putByte s.2 b).cwcBuf.1.take (s.2 + 1) = (cutInto ablkLen bs).rest ++ [b] := by
    rw [← h.buffer]
    exact take_setByte (hlt.trans (by decide)) b
  have hctx := h.ctx
  rw [CwcCtx.feed]
  by_cases hfull : s.2 + 1 = ablkLen
  · have hcut : cutInto ablkLen (bs ++ [b]) =
        ⟨(cutInto ablkLen bs).blocks ++ [(cutInto ablkLen bs).rest ++ [b]], []⟩ := by
      rw [cut_snoc, Cutting.push, if_pos (by rw [← h.pos]; exact hfull)]
    rw [if_pos hfull]
    refine ⟨by rw [hcut]; rfl, by rw [hcut]; rfl, ?_⟩
    rw [hcut, hashBlocks, List.foldl_append, List.foldl_cons, List.foldl_nil, ← hashBlocks, ← hput,
      hfull, cwcIterate_take, CwcCtx.doCwc, hctx]
    rfl
  · have hcut : cutInto ablkLen (bs ++ [b]) =
        ⟨(cutInto ablkLen bs).blocks, (cutInto ablkLen bs).rest ++ [b]⟩ := by
      rw [cut_snoc, Cutting.push, if_neg (by rw [← h.pos]; exact hfull)]
    rw [if_neg hfull]
    refine ⟨?_, by rw [hcut]; exact hput, ?_⟩
    · rw [hcut, List.length_append, List.length_singleton, ← h.pos]
    · rw [hcut, hctx]
      rfl

theorem Fed.append {fresh : CwcCtx} {s : CwcCtx × Nat} (h : Fed platform fresh bs s)
    (data : List UInt8) :
    Fed platform fresh (bs ++ data) (data.foldl (CwcCtx.feed platform) s) := by
  induction data using List.reverseRecOn with
  | nil => rwa [List.append_nil]
  | append_singleton data b ih =>
    rw [← List.append_assoc, List.foldl_append, List.foldl_cons, List.foldl_nil]
    exact ih.snoc b

theorem Fed.absorbData {fresh ctx : CwcCtx} {bPos : Nat} (h : Fed platform fresh bs (ctx, bPos))
    (addr : Int) (data : List UInt8) :
    ∃ next, Fed platform fresh (bs ++ data) (Native.absorbData platform addr data bPos ctx, next) := by
  have hlt : bPos < ablkLen := by
    have hpos := h.pos
    dsimp only at hpos
    rw [hpos, length_rest_cut (by decide)]
    exact Nat.mod_lt _ (by decide)
  rw [absorbData_eq platform addr data hlt ctx]
  exact ⟨_, h.append data⟩

theorem putBytes_replicate_feed (ctx : CwcCtx) {pos : Nat} (h : pos < ablkLen) :
    (List.replicate (ablkLen - pos) 0).foldl (CwcCtx.feed platform) (ctx, pos) =
      ((ctx.putBytes pos (List.replicate (ablkLen - pos) 0)).doCwc platform, 0) := by
  have hlen : pos + (List.replicate (ablkLen - pos) (0 : UInt8)).length = ablkLen := by
    rw [List.length_replicate]
    omega
  have hput := CwcCtx.flush_putBytes platform ctx _ hlen.le
  rw [CwcCtx.flush_of_lt (s := (ctx, pos)) h] at hput
  rw [← hput, hlen]
  exact if_pos rfl

theorem Fed.padBlock {fresh ctx : CwcCtx} {bPos : Nat} (h : Fed platform fresh bs (ctx, bPos)) :
    Fed platform fresh (padTo ablkLen 0 bs) (ctx.padBlock platform bPos, 0) := by
  have hpos : bPos = bs.length % ablkLen := h.pos.trans (length_rest_cut (by decide) bs)
  have hlt : bPos < ablkLen := by
    rw [hpos]
    exact Nat.mod_lt _ (by decide)
  rw [padTo, ← hpos, CwcCtx.padBlock]
  by_cases hzero : bPos = 0
  · rw [if_pos hzero, hzero, Nat.sub_zero, Nat.mod_self, List.replicate_zero, List.append_nil]
    rwa [hzero] at h
  · have hmod : (ablkLen - bPos) % ablkLen = ablkLen - bPos := Nat.mod_eq_of_lt (by omega)
    rw [if_neg hzero, hmod, ← putBytes_replicate_feed ctx hlt]
    exact h.append _

end Native

end AcOpenServer
