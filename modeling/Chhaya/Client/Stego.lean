import Chhaya.Dart.Core

/-!
# Steganography

`lib/services/crypto/stego_service.dart`: the bits of a message in the last bits of the channels of an image. A text is
the list of its UTF-16 code units. PNG is a parameter that gives back every image it was given.

- `Embedded.step`, `embedAll_embedded`: the loops of the writer set the bits in the order of the channels.
- `readBytes_eq`: the loops of the reader collect them.
- `extract_written`: what is read is the low bytes of the code units, as many as the header says.
- `stego_iff`: a text that fits comes back exactly if it has only code units below 256, and not too many.
-/

namespace Chhaya

structure Rgb where
  r : UInt8
  g : UInt8
  b : UInt8
  deriving DecidableEq

namespace Rgb

def channel (p : Rgb) : Nat → UInt8
  | 0 => p.r
  | 1 => p.g
  | _ => p.b

def set (p : Rgb) (channel : Nat) (v : UInt8) : Rgb :=
  match channel with
  | 0 => { p with r := v }
  | 1 => { p with g := v }
  | _ => { p with b := v }

end Rgb

/-- An image of eight bits a channel, row by row. -/
structure Image where
  width : Nat
  height : Nat
  pixels : List Rgb
  size : pixels.length = width * height

namespace Image

def getPixel (image : Image) (x y : Nat) : Option Rgb := image.pixels[y * image.width + x]?

def setPixelRgb (image : Image) (x y : Nat) (p : Rgb) : Image :=
  { image with
    pixels := image.pixels.set (y * image.width + x) p
    size := by rw [List.length_set, image.size] }

/-- One bit for each channel of each pixel. -/
def capacityBits (image : Image) : Nat := image.width * image.height * 3

end Image

/-- The image package: it gives back every image that it was given. -/
structure Png where
  decodeImage : Bytes → Option Image
  encodePng : Image → Bytes
  lossless : ∀ image, decodeImage (encodePng image) = some image

inductive StegoError
  | argument (message : String)
  | format (message : String)
  | range
  | divisionByZero

namespace StegoService

/-! ## Writing -/

/-- `(c & 0xFE) | bit`. -/
def embedBit (c bit : UInt8) : UInt8 := (c &&& 0xFE) ||| bit

/-- `(msgBytes[bitIdx ~/ 8] >> (7 - bitIdx % 8)) & 1`. -/
def bitOf (msgBytes : Bytes) (bitIdx : Nat) : UInt8 :=
  (msgBytes.getD (bitIdx / 8) 0 >>> UInt8.ofNat (7 - bitIdx % 8)) &&& 1

section

variable (msgBytes : Bytes) (neededBits : Nat)

/-- The body of the loop over the channels. After a `break` the others would not be entered either. -/
def embedChannel (st : Rgb × Nat) (channel : Nat) : Rgb × Nat :=
  if st.2 ≥ neededBits then st
  else (st.1.set channel (embedBit (st.1.channel channel) (bitOf msgBytes st.2)), st.2 + 1)

/-- The body of the loop over the columns. The pixel is in the image. -/
def embedPixel (st : Image × Nat) (x y : Nat) : Image × Nat :=
  match st.1.getPixel x y with
  | none => st
  | some pixel =>
    let r := [0, 1, 2].foldl (embedChannel msgBytes neededBits) (pixel, st.2)
    (st.1.setPixelRgb x y r.1, r.2)

/-- The loop over the columns of a row, as long as there are bits. -/
def embedRow (width y : Nat) (st : Image × Nat) : Image × Nat :=
  (List.range width).foldl (fun st x => if st.2 < neededBits then embedPixel msgBytes neededBits st x y else st) st

/-- The loop over the rows, as long as there are bits. -/
def embedAll (image : Image) : Image × Nat :=
  (List.range image.height).foldl
    (fun st y => if st.2 < neededBits then embedRow msgBytes neededBits image.width y st else st) (image, 0)

end

/-- The header and the low bytes of the code units. -/
def messageBytes (message : List UInt16) : Bytes := u32be message.length ++ message.map UInt16.toUInt8

def embedMessage (png : Png) (pngBytes : Bytes) (message : List UInt16) : Except StegoError Bytes :=
  match png.decodeImage pngBytes with
  | none => .error (.argument "Invalid image")
  | some image =>
    let msgBytes := messageBytes message
    let neededBits := msgBytes.length * 8
    if neededBits > image.capacityBits then
      .error (.argument ("Image too small: needs " ++ toString neededBits ++ " bits, has " ++ toString image.capacityBits))
    else .ok (png.encodePng (embedAll msgBytes neededBits image).1)

/-! ## Reading -/

/-- `readBit`. -/
def readBit (image : Image) (idx : Nat) : Except StegoError UInt8 :=
  if image.width = 0 then .error .divisionByZero
  else match image.getPixel (idx / 3 % image.width) (idx / 3 / image.width) with
    | none => .error .range
    | some p => .ok (p.channel (idx % 3) &&& 1)

/-- The body of the loops that collect bits: the bit `start + i` of the image is the bit `i` of the bytes. -/
def collectBit (image : Image) (start : Nat) (bytes : Bytes) (i : Nat) : Except StegoError Bytes := do
  let bit ← readBit image (start + i)
  return bytes.modify (i / 8) (· ||| (bit <<< UInt8.ofNat (7 - i % 8)))

/-- The loop that collects the bits of `n` bytes, from the bit `start` on. -/
def readBytes (image : Image) (start n : Nat) : Except StegoError Bytes :=
  (List.range (8 * n)).foldlM (collectBit image start) (List.replicate n 0)

def extractMessage (png : Png) (pngBytes : Bytes) : Except StegoError (List UInt16) :=
  match png.decodeImage pngBytes with
  | none => .error (.argument "Invalid image")
  | some image => do
    let header ← readBytes image 0 4
    let msgLen := readU32be header
    if msgLen > 100000 then .error (.format ("Invalid stego length " ++ toString msgLen))
    else if (4 + msgLen) * 8 > image.capacityBits then .error (.format "Stego payload exceeds capacity")
    else return (← readBytes image 32 msgLen).map UInt8.toUInt16

/-! ## Bits -/

/-- What holds of the numbers below 256 holds of the bytes. -/
theorem forall_byte {p : UInt8 → Prop} (h : ∀ n < 256, p (UInt8.ofNat n)) (c : UInt8) : p c := by
  have hc := h _ c.toNat_lt
  rwa [UInt8.ofNat_toNat] at hc

theorem bitOf_cases (msgBytes : Bytes) (k : Nat) : bitOf msgBytes k = 0 ∨ bitOf msgBytes k = 1 := by
  have h : ∀ c : UInt8, c &&& 1 = 0 ∨ c &&& 1 = 1 := forall_byte (by decide +kernel)
  exact h _

/-- The bit is found again. -/
theorem embedBit_and (c : UInt8) {bit : UInt8} (h : bit = 0 ∨ bit = 1) : embedBit c bit &&& 1 = bit := by
  have hall : ∀ c : UInt8, embedBit c 0 &&& 1 = 0 ∧ embedBit c 1 &&& 1 = 1 := forall_byte (by decide +kernel)
  rcases h with rfl | rfl
  · exact (hall c).1
  · exact (hall c).2

/-- Two channel values that differ by one at most. -/
def Near (a b : UInt8) : Prop := a.toNat ≤ b.toNat + 1 ∧ b.toNat ≤ a.toNat + 1

instance (a b : UInt8) : Decidable (Near a b) := inferInstanceAs (Decidable (_ ∧ _))

theorem near_embedBit (c : UInt8) {bit : UInt8} (h : bit = 0 ∨ bit = 1) : Near (embedBit c bit) c := by
  have hall : ∀ c : UInt8, Near (embedBit c 0) c ∧ Near (embedBit c 1) c := forall_byte (by decide +kernel)
  rcases h with rfl | rfl
  · exact (hall c).1
  · exact (hall c).2

theorem near_refl (c : UInt8) : Near c c := ⟨Nat.le_succ _, Nat.le_succ _⟩

/-- The highest `t` bits of a byte. -/
def top (t : Nat) (v : UInt8) : UInt8 := UInt8.ofNat (v.toNat / 2 ^ (8 - t) * 2 ^ (8 - t))

theorem top_zero (v : UInt8) : top 0 v = 0 := by
  have hv := v.toNat_lt
  rw [top, Nat.div_eq_of_lt hv, Nat.zero_mul]
  rfl

theorem top_eight (v : UInt8) : top 8 v = v := by
  rw [top, Nat.sub_self, Nat.pow_zero, Nat.div_one, Nat.mul_one, UInt8.ofNat_toNat]

/-- The next bit. -/
theorem top_succ (v : UInt8) {t : Nat} (h : t < 8) :
    top t v ||| (((v >>> UInt8.ofNat (7 - t)) &&& 1) <<< UInt8.ofNat (7 - t)) = top (t + 1) v := by
  have hall : ∀ v : UInt8, ∀ t < 8,
      top t v ||| (((v >>> UInt8.ofNat (7 - t)) &&& 1) <<< UInt8.ofNat (7 - t)) = top (t + 1) v :=
    forall_byte (by decide +kernel)
  exact hall v t h

/-! ## What the writer leaves -/

section

variable {msgBytes : Bytes} {neededBits : Nat} {image : Image}

/-- Channel `k` after the writer. -/
def mark (msgBytes : Bytes) (neededBits k : Nat) (c : UInt8) : UInt8 :=
  if k < neededBits then embedBit c (bitOf msgBytes k) else c

/-- Pixel `m` after the writer. -/
def marked (msgBytes : Bytes) (neededBits m : Nat) (p : Rgb) : Rgb :=
  ⟨mark msgBytes neededBits (3 * m) p.r, mark msgBytes neededBits (3 * m + 1) p.g, mark msgBytes neededBits (3 * m + 2) p.b⟩

theorem mark_of_le {k : Nat} (h : neededBits ≤ k) (c : UInt8) : mark msgBytes neededBits k c = c :=
  if_neg (Nat.not_lt.mpr h)

theorem mark_of_lt {k : Nat} (h : k < neededBits) (c : UInt8) :
    mark msgBytes neededBits k c = embedBit c (bitOf msgBytes k) := if_pos h

theorem marked_of_le {m : Nat} (h : neededBits ≤ 3 * m) (p : Rgb) : marked msgBytes neededBits m p = p := by
  rw [marked, mark_of_le h, mark_of_le (by omega), mark_of_le (by omega)]

/-- One channel, at a bit that may be the last. -/
theorem embedChannel_eq (p : Rgb) (k channel : Nat) : embedChannel msgBytes neededBits (p, min k neededBits) channel =
    (p.set channel (mark msgBytes neededBits k (p.channel channel)), min (k + 1) neededBits) := by
  unfold embedChannel
  by_cases hk : k < neededBits
  · rw [Nat.min_eq_left (Nat.le_of_lt hk), if_neg (Nat.not_le.mpr hk), mark_of_lt hk, Nat.min_eq_left hk]
  · have hle : neededBits ≤ k := Nat.le_of_not_lt hk
    have hset : p.set channel (p.channel channel) = p := by
      rcases channel with _ | _ | _ <;> rfl
    rw [Nat.min_eq_right hle, if_pos le_rfl, mark_of_le hle, hset, Nat.min_eq_right (by omega)]

/-- The three channels of a pixel. -/
theorem embedChannels_eq (p : Rgb) (m : Nat) :
    [0, 1, 2].foldl (embedChannel msgBytes neededBits) (p, min (3 * m) neededBits) =
      (marked msgBytes neededBits m p, min (3 * (m + 1)) neededBits) := by
  rw [List.foldl_cons, embedChannel_eq, List.foldl_cons, embedChannel_eq, List.foldl_cons, embedChannel_eq]
  rfl

/-- The first `n` pixels are written. -/
structure Embedded (msgBytes : Bytes) (neededBits : Nat) (image : Image) (n : Nat) (st : Image × Nat) : Prop where
  width : st.1.width = image.width
  height : st.1.height = image.height
  bitIdx : st.2 = min (3 * n) neededBits
  pixel : ∀ m, st.1.pixels[m]? = image.pixels[m]?.map fun p => if m < n then marked msgBytes neededBits m p else p

/-- When all bits are written, the rest is as it should be. -/
theorem Embedded.skip {n n' : Nat} {st : Image × Nat} (h : Embedded msgBytes neededBits image n st)
    (hle : neededBits ≤ st.2) (hn : n ≤ n') : Embedded msgBytes neededBits image n' st := by
  have hbit := h.bitIdx
  have hall : neededBits ≤ 3 * n := by omega
  refine ⟨h.width, h.height, by omega, fun m => ?_⟩
  rw [h.pixel m]
  refine congrArg (Option.map · _) (funext fun p => ?_)
  by_cases hm : m < n
  · rw [if_pos hm, if_pos (by omega)]
  · rw [if_neg hm]
    split
    · rw [marked_of_le (by omega)]
    · rfl

/-- One pixel. -/
theorem Embedded.step {x y : Nat} {st : Image × Nat} (h : Embedded msgBytes neededBits image (y * image.width + x) st)
    (hlt : y * image.width + x < image.pixels.length) : Embedded msgBytes neededBits image (y * image.width + x + 1)
      (if st.2 < neededBits then embedPixel msgBytes neededBits st x y else st) := by
  by_cases hb : st.2 < neededBits
  · have hget : st.1.getPixel x y = some image.pixels[y * image.width + x] := by
      rw [Image.getPixel, h.width, h.pixel, List.getElem?_eq_getElem hlt, Option.map_some, if_neg (Nat.lt_irrefl _)]
    rw [if_pos hb, embedPixel, hget]
    dsimp only
    rw [h.bitIdx, embedChannels_eq]
    refine ⟨h.width, h.height, rfl, fun m => ?_⟩
    show (st.1.pixels.set (y * st.1.width + x) _)[m]? = _
    rw [h.width, List.getElem?_set]
    by_cases hm : y * image.width + x = m
    · subst hm
      have hlen : y * image.width + x < st.1.pixels.length := by
        have hp := h.pixel (y * image.width + x)
        rw [List.getElem?_eq_getElem hlt] at hp
        exact (List.getElem?_eq_some_iff.mp hp).1
      rw [if_pos rfl, if_pos hlen, List.getElem?_eq_getElem hlt, Option.map_some, if_pos (Nat.lt_succ_self _)]
    · rw [if_neg hm, h.pixel]
      refine congrArg (Option.map · _) (funext fun p => ?_)
      by_cases hlt' : m < y * image.width + x
      · rw [if_pos hlt', if_pos (by omega)]
      · rw [if_neg hlt', if_neg (by omega)]
  · rw [if_neg hb]
    exact h.skip (Nat.le_of_not_lt hb) (Nat.le_succ _)

/-- The first pixels of a row. -/
theorem Embedded.row {y : Nat} {st : Image × Nat} (h : Embedded msgBytes neededBits image (y * image.width) st)
    (hy : y < image.height) (n : Nat) (hn : n ≤ image.width) : Embedded msgBytes neededBits image (y * image.width + n)
      ((List.range n).foldl (fun st x => if st.2 < neededBits then embedPixel msgBytes neededBits st x y else st) st) := by
  induction n with
  | zero => exact h
  | succ n ih =>
    rw [List.range_succ, List.foldl_append]
    have hrows : (y + 1) * image.width ≤ image.height * image.width := Nat.mul_le_mul_right _ hy
    rw [Nat.succ_mul, Nat.mul_comm image.height, ← image.size] at hrows
    exact (ih (by omega)).step (by omega)

/-- The first rows. -/
theorem Embedded.rows (n : Nat) (hn : n ≤ image.height) : Embedded msgBytes neededBits image (n * image.width)
    ((List.range n).foldl
      (fun st y => if st.2 < neededBits then embedRow msgBytes neededBits image.width y st else st) (image, 0)) := by
  induction n with
  | zero =>
    refine ⟨rfl, rfl, by simp, fun m => ?_⟩
    rw [Nat.zero_mul]
    simp
  | succ n ih =>
    have ih := ih (by omega)
    rw [List.range_succ, List.foldl_append, Nat.succ_mul]
    show Embedded msgBytes neededBits image _ (if _ then _ else _)
    split
    · exact ih.row (by omega) _ le_rfl
    · rename_i hb
      exact ih.skip (Nat.le_of_not_lt hb) (Nat.le_add_right _ _)

/-- All pixels are written. -/
theorem embedAll_embedded (msgBytes : Bytes) (neededBits : Nat) (image : Image) :
    Embedded msgBytes neededBits image image.pixels.length (embedAll msgBytes neededBits image) := by
  rw [image.size, Nat.mul_comm]
  exact Embedded.rows image.height le_rfl

/-! ## What the reader finds -/

/-- The bits of the message are where the writer has put them. -/
theorem readBit_embedAll {k : Nat} (hk : k < neededBits) (hfits : neededBits ≤ image.capacityBits) :
    readBit (embedAll msgBytes neededBits image).1 k = .ok (bitOf msgBytes k) := by
  have h := embedAll_embedded msgBytes neededBits image
  have hcap : neededBits ≤ image.width * image.height * 3 := hfits
  have hlt : k / 3 < image.pixels.length := by
    rw [image.size]
    omega
  have hw : image.width ≠ 0 := by
    intro h0
    rw [h0, Nat.zero_mul] at hcap
    omega
  have hindex : k / 3 / image.width * image.width + k / 3 % image.width = k / 3 := Nat.div_add_mod' _ _
  unfold readBit
  rw [h.width, if_neg hw, Image.getPixel, h.width, hindex, h.pixel, List.getElem?_eq_getElem hlt, Option.map_some,
    if_pos hlt]
  dsimp only
  have hchannel : ∀ p : Rgb, (marked msgBytes neededBits (k / 3) p).channel (k % 3) &&& 1 = bitOf msgBytes k := by
    intro p
    have hmark : (marked msgBytes neededBits (k / 3) p).channel (k % 3) =
        mark msgBytes neededBits (3 * (k / 3) + k % 3) (p.channel (k % 3)) := by
      obtain h3 | h3 | h3 : k % 3 = 0 ∨ k % 3 = 1 ∨ k % 3 = 2 := by omega
      all_goals rw [h3]; rfl
    rw [hmark, Nat.div_add_mod, mark_of_lt hk, embedBit_and _ (bitOf_cases _ _)]
  rw [hchannel]

/-- The first `n` bits of the bytes of a message, from byte `a` on. -/
def partly (msgBytes : Bytes) (a count n : Nat) : Bytes :=
  (List.range count).map fun j => top (min (n - 8 * j) 8) (msgBytes.getD (a + j) 0)

/-- The next bit. -/
theorem modify_partly (a count n : Nat) : (partly msgBytes a count n).modify (n / 8)
    (· ||| (bitOf msgBytes (8 * a + n) <<< UInt8.ofNat (7 - n % 8))) = partly msgBytes a count (n + 1) := by
  have hbit : bitOf msgBytes (8 * a + n) =
      (msgBytes.getD (a + n / 8) 0 >>> UInt8.ofNat (7 - n % 8)) &&& 1 := by
    rw [bitOf, show (8 * a + n) / 8 = a + n / 8 by omega, show (8 * a + n) % 8 = n % 8 by omega]
  refine List.ext_getElem (by simp [partly]) fun j h1 h2 => ?_
  simp only [partly, List.getElem_modify, List.getElem_map, List.getElem_range]
  by_cases hj : n / 8 = j
  · subst hj
    rw [if_pos rfl, hbit, show min (n - 8 * (n / 8)) 8 = n % 8 by omega, top_succ _ (Nat.mod_lt _ (by decide)),
      show min (n + 1 - 8 * (n / 8)) 8 = n % 8 + 1 by omega]
  · rw [if_neg hj, show min (n + 1 - 8 * j) 8 = min (n - 8 * j) 8 by omega]

/-- The loop collects the bytes whose bits the image has. -/
theorem readBytes_eq {a count : Nat}
    (hbits : ∀ i < 8 * count, readBit image (8 * a + i) = .ok (bitOf msgBytes (8 * a + i))) :
    readBytes image (8 * a) count = .ok ((List.range count).map fun j => msgBytes.getD (a + j) 0) := by
  have hloop : ∀ n ≤ 8 * count, (List.range n).foldlM (collectBit image (8 * a)) (List.replicate count 0) =
      .ok (partly msgBytes a count n) := by
    intro n
    induction n with
    | zero =>
      intro _
      refine congrArg Except.ok (List.ext_getElem (by simp [partly]) fun j h1 h2 => ?_)
      simp only [partly, List.getElem_replicate, List.getElem_map, Nat.zero_sub, Nat.zero_min, top_zero]
    | succ n ih =>
      intro hn
      rw [List.range_succ, List.foldlM_append, ih (by omega)]
      show collectBit image (8 * a) (partly msgBytes a count n) n >>= pure = _
      rw [collectBit, hbits n (by omega), bind_pure]
      exact congrArg Except.ok (modify_partly a count n)
  rw [readBytes, hloop _ le_rfl]
  refine congrArg Except.ok (List.map_congr_left fun j hj => ?_)
  have hlt := List.mem_range.mp hj
  rw [Nat.min_eq_right (by omega), top_eight]

end

/-! ## The round trip -/

/-- The image has a channel for every bit. -/
def Fits (image : Image) (message : List UInt16) : Prop := (messageBytes message).length * 8 ≤ image.capacityBits

/-- What is read of so many code units. -/
def lowUnits (message : List UInt16) (n : Nat) : List UInt16 := (message.take n).map fun u => u.toUInt8.toUInt16

section

variable {png : Png} {pngBytes : Bytes} {image : Image} {message : List UInt16}

theorem length_messageBytes : (messageBytes message).length = 4 + message.length := by
  rw [messageBytes, List.length_append, length_u32be, List.length_map]

/-- What is written into an image with a channel for every bit. -/
def written (image : Image) (message : List UInt16) : Image :=
  (embedAll (messageBytes message) ((messageBytes message).length * 8) image).1

theorem embedMessage_fits (h : png.decodeImage pngBytes = some image) (hf : Fits image message) :
    embedMessage png pngBytes message = .ok (png.encodePng (written image message)) := by
  unfold embedMessage
  rw [h]
  exact if_neg (Nat.not_lt.mpr hf)

/-- What does not fit is refused. -/
theorem embedMessage_large (h : png.decodeImage pngBytes = some image) (hf : ¬Fits image message) :
    ∃ e, embedMessage png pngBytes message = .error e := by
  unfold embedMessage
  rw [h]
  exact ⟨_, if_pos (Nat.lt_of_not_le hf)⟩

/-- The bytes of the message that the image has. -/
theorem readBytes_written {a n : Nat} (hf : Fits image message) (hle : a + n ≤ 4 + message.length) :
    readBytes (written image message) (8 * a) n = .ok (((messageBytes message).drop a).take n) := by
  have hlen : (messageBytes message).length = 4 + message.length := length_messageBytes
  have hread : readBytes (written image message) (8 * a) n =
      .ok ((List.range n).map fun j => (messageBytes message).getD (a + j) 0) :=
    readBytes_eq fun i hi => readBit_embedAll (by omega) hf
  rw [hread]
  refine congrArg Except.ok (List.ext_getElem ?_ fun j h1 h2 => ?_)
  · rw [List.length_map, List.length_range, List.length_take, List.length_drop]
    omega
  · have hj : j < n := by simpa using h1
    rw [List.getElem_map, List.getElem_range, List.getElem_take, List.getElem_drop, List.getD_eq_getElem?_getD,
      List.getElem?_eq_getElem (by omega), Option.getD_some]

theorem ok_bind {ε α γ : Type} (a : α) (f : α → Except ε γ) : (Except.ok a >>= f) = f a := rfl

/-- The reader on an image with a header. -/
theorem extractMessage_header {header : Bytes} (hdec : png.decodeImage pngBytes = some image)
    (hheader : readBytes image 0 4 = .ok header) : extractMessage png pngBytes =
      if readU32be header > 100000 then
        .error (.format ("Invalid stego length " ++ toString (readU32be header)))
      else if (4 + readU32be header) * 8 > image.capacityBits then .error (.format "Stego payload exceeds capacity")
      else readBytes image 32 (readU32be header) >>= fun bytes => pure (bytes.map UInt8.toUInt16) := by
  unfold extractMessage
  rw [hdec]
  dsimp only
  rw [hheader, ok_bind]

/-- What is read is the low bytes of the code units, as many as the header says. -/
theorem extract_written (hf : Fits image message) : extractMessage png (png.encodePng (written image message)) =
    if message.length % 2 ^ 32 > 100000 then
      .error (.format ("Invalid stego length " ++ toString (message.length % 2 ^ 32)))
    else .ok (lowUnits message (message.length % 2 ^ 32)) := by
  have hheader : readBytes (written image message) 0 4 = .ok (u32be message.length) := by
    have hread := readBytes_written (a := 0) (n := 4) hf (by omega)
    rw [hread, List.drop_zero, messageBytes, List.take_left' (length_u32be _)]
  have hextract := extractMessage_header (png.lossless (written image message)) hheader
  rw [readU32be_u32be_mod] at hextract
  have hmod : message.length % 2 ^ 32 ≤ message.length := Nat.mod_le _ _
  generalize message.length % 2 ^ 32 = n at hextract hmod ⊢
  have hwritten := embedAll_embedded (messageBytes message) ((messageBytes message).length * 8) image
  have hcapacity : (written image message).capacityBits = image.capacityBits := by
    rw [Image.capacityBits, Image.capacityBits, written, hwritten.width, hwritten.height]
  have hfits : (4 + message.length) * 8 ≤ image.capacityBits := by
    rw [← length_messageBytes]
    exact hf
  have hroom : ¬(4 + n) * 8 > (written image message).capacityBits := by omega
  have hlow : readBytes (written image message) 32 n = .ok ((message.map UInt16.toUInt8).take n) := by
    have hread := readBytes_written (a := 4) (n := n) hf (by omega)
    rw [hread, messageBytes, List.drop_left' (length_u32be _)]
  rw [hextract, if_neg hroom, hlow, ok_bind, lowUnits, ← List.map_take, List.map_map]
  rfl

theorem toUInt16_toUInt8 (u : UInt16) : u.toUInt8.toUInt16 = u ↔ u < 256 := by
  rw [← UInt16.toNat_inj, UInt8.toNat_toUInt16, UInt16.toNat_toUInt8, UInt16.lt_iff_toNat_lt]
  show u.toNat % 256 = u.toNat ↔ u.toNat < 256
  omega

/-- Which texts survive the truncation. -/
theorem lowUnits_eq_iff (message : List UInt16) : lowUnits message message.length = message ↔ ∀ u ∈ message, u < 256 := by
  have hmap : message.map (fun u => u.toUInt8.toUInt16) = message.map id ↔ ∀ u ∈ message, u.toUInt8.toUInt16 = u :=
    List.map_inj_left
  rw [List.map_id] at hmap
  rw [lowUnits, List.take_length, hmap]
  exact forall₂_congr fun u _ => toUInt16_toUInt8 u

/-- The bytes decode to an image that differs from the other by one at most in every channel. -/
def Unseen (png : Png) (out : Bytes) (image : Image) : Prop := ∃ image', png.decodeImage out = some image' ∧
  image'.width = image.width ∧ image'.height = image.height ∧
    List.Forall₂ (fun p q : Rgb => Near p.r q.r ∧ Near p.g q.g ∧ Near p.b q.b) image'.pixels image.pixels

theorem near_mark (msgBytes : Bytes) (neededBits k : Nat) (c : UInt8) : Near (mark msgBytes neededBits k c) c := by
  unfold mark
  split
  · exact near_embedBit c (bitOf_cases _ _)
  · exact near_refl c

/-- The message is not to be seen. -/
theorem unseen_written (png : Png) (image : Image) (message : List UInt16) :
    Unseen png (png.encodePng (written image message)) image := by
  have h := embedAll_embedded (messageBytes message) ((messageBytes message).length * 8) image
  refine ⟨_, png.lossless _, h.width, h.height, ?_⟩
  have hlen : (written image message).pixels.length = image.pixels.length := by
    rw [(written image message).size, image.size, written, h.width, h.height]
  refine List.forall₂_iff_get.mpr ⟨hlen, fun m h1 h2 => ?_⟩
  have hpixel : (written image message).pixels[m]? = _ := h.pixel m
  rw [List.getElem?_eq_getElem h2, List.getElem?_eq_getElem h1, Option.map_some, if_pos h2] at hpixel
  rw [List.get_eq_getElem, List.get_eq_getElem, Option.some.inj hpixel]
  exact ⟨near_mark _ _ _ _, near_mark _ _ _ _, near_mark _ _ _ _⟩

/-- A text is refused, and it does not fit, or it comes back from an image that looks like the other. -/
def RoundTrip (png : Png) (pngBytes : Bytes) (image : Image) (message : List UInt16) : Prop :=
  ((∃ e, embedMessage png pngBytes message = .error e) ∧ ¬Fits image message) ∨
    ∃ out, embedMessage png pngBytes message = .ok out ∧ extractMessage png out = .ok message ∧ Unseen png out image

variable (png) in
/-- A text that fits is read back exactly if it is not too long and has no code unit of two bytes. -/
theorem extract_written_iff (hf : Fits image message) :
    extractMessage png (png.encodePng (written image message)) = .ok message ↔
      message.length ≤ 100000 ∧ ∀ u ∈ message, u < 256 := by
  rw [extract_written hf, ← lowUnits_eq_iff]
  have hmod : message.length < 2 ^ 32 → message.length % 2 ^ 32 = message.length := Nat.mod_eq_of_lt
  have hlarge : message.length ≤ 100000 → message.length < 2 ^ 32 := fun h => lt_of_le_of_lt h (by norm_num)
  generalize hn : message.length % 2 ^ 32 = n at hmod ⊢
  constructor
  · intro h
    have hle : ¬n > 100000 := by
      intro hgt
      rw [if_pos hgt] at h
      cases h
    rw [if_neg hle] at h
    have hlow : lowUnits message n = message := Except.ok.inj h
    have hlen : min n message.length = message.length := by
      rw [← List.length_take, ← List.length_map (fun u : UInt16 => u.toUInt8.toUInt16)]
      exact congrArg List.length hlow
    have heq : n = message.length := by
      have hmod' : message.length % 2 ^ 32 ≤ message.length := Nat.mod_le _ _
      omega
    subst heq
    exact ⟨by omega, hlow⟩
  · rintro ⟨hle, hlow⟩
    rw [hmod (hlarge hle), if_neg (Nat.not_lt.mpr hle), hlow]

/-- A text goes through an image exactly if it does not fit, or is not too long and has no code unit of two bytes. -/
theorem stego_iff (png : Png) (pngBytes : Bytes) (image : Image) (message : List UInt16)
    (h : png.decodeImage pngBytes = some image) : RoundTrip png pngBytes image message ↔
      ¬Fits image message ∨ (message.length ≤ 100000 ∧ ∀ u ∈ message, u < 256) := by
  by_cases hf : Fits image message
  · have hembed := embedMessage_fits h hf
    rw [← extract_written_iff png hf]
    constructor
    · rintro (⟨-, hno⟩ | ⟨out, hout, hextract, -⟩)
      · exact absurd hf hno
      · rw [hembed] at hout
        cases hout
        exact .inr hextract
    · rintro (hno | hextract)
      · exact absurd hf hno
      · exact .inr ⟨_, hembed, hextract, unseen_written png image message⟩
  · exact iff_of_true (.inl ⟨embedMessage_large h hf, hf⟩) (.inl hf)

end

/-! ## A bitmap -/

/-- The channels of pixels, one after the other. -/
def channels : List Rgb → Bytes
  | [] => []
  | p :: pixels => p.r :: p.g :: p.b :: channels pixels

def pixelsOf : Bytes → List Rgb
  | r :: g :: b :: bytes => ⟨r, g, b⟩ :: pixelsOf bytes
  | _ => []

theorem pixelsOf_channels (pixels : List Rgb) : pixelsOf (channels pixels) = pixels := by
  induction pixels with
  | nil => rfl
  | cons p pixels ih => rw [channels, pixelsOf, ih]

/-- A number in unary, in front of other bytes. -/
def unary (n : Nat) (bytes : Bytes) : Bytes := List.replicate n 1 ++ 0 :: bytes

def readUnary (bytes : Bytes) : Nat × Bytes :=
  ((bytes.takeWhile (· == 1)).length, (bytes.dropWhile (· == 1)).drop 1)

theorem readUnary_unary (n : Nat) (bytes : Bytes) : readUnary (unary n bytes) = (n, bytes) := by
  induction n with
  | zero => rfl
  | succ n ih =>
    have hsplit : unary (n + 1) bytes = 1 :: unary n bytes := rfl
    have hcons : readUnary (1 :: unary n bytes) = ((readUnary (unary n bytes)).1 + 1, (readUnary (unary n bytes)).2) := rfl
    rw [hsplit, hcons, ih]

/-- The dimensions and the channels, without compression. -/
def bitmap : Png where
  encodePng image := unary image.width (unary image.height (channels image.pixels))
  decodeImage bytes :=
    let (width, bytes) := readUnary bytes
    let (height, bytes) := readUnary bytes
    if h : (pixelsOf bytes).length = width * height then some ⟨width, height, pixelsOf bytes, h⟩ else none
  lossless image := by
    obtain ⟨width, height, pixels, size⟩ := image
    simp only [readUnary_unary, pixelsOf_channels]
    rw [dif_pos size]

/-- An image with place for five bytes. -/
def tile : Image := ⟨7, 2, List.replicate 14 ⟨10, 20, 30⟩, rfl⟩

theorem stego_letter : RoundTrip bitmap (bitmap.encodePng tile) tile [104] ↔
    ¬Fits tile [104] ∨ (([104] : List UInt16).length ≤ 100000 ∧ ∀ u ∈ ([104] : List UInt16), u < 256) :=
  stego_iff bitmap (bitmap.encodePng tile) tile [104] (bitmap.lossless tile)

/-- `€` comes back as `¬`. -/
theorem stego_euro : ¬RoundTrip bitmap (bitmap.encodePng tile) tile [0x20AC] := by
  have hf : Fits tile [0x20AC] := by
    unfold Fits
    decide
  rintro (⟨-, hno⟩ | ⟨out, hout, hextract, -⟩)
  · exact hno hf
  · rw [embedMessage_fits (bitmap.lossless tile) hf] at hout
    cases hout
    have hread := (extract_written_iff bitmap hf).mp hextract
    exact absurd (hread.2 0x20AC (List.mem_singleton_self _)) (by decide)

end StegoService

end Chhaya
