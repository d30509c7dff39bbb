import Netom.ClickHouse.Spool

/-!
# Recovery of a segment that was cut off

A crash leaves some first part of a segment file.  Recovery keeps the frames that are complete and
seals the file behind them.

* `image`  a file with these frames, and something behind them;
* `scanTurn_frame`, `scanTurn_cut`, `scanTurn_footer`  what one turn of the scan finds;
* `scan_image`  what the scan makes of a file;
* `recover_cut`  the segment that recovery leaves;
* `openSpool_again` a spool that has been opened has nothing left to recover.
-/

namespace Netom.ClickHouse
open LittleEndian Segments AList List SpoolDir

/-- what `append` asks of a frame -/
def Frame.Fits (f : Frame) : Prop := f.bytes ≠ [] ∧ f.bytes.length ≤ maxFrame ∧ f.rows ≠ 0

def rowSum (fs : List Frame) : Nat := (fs.map (·.rows)).sum

lemma rowSum_cons (f : Frame) (fs : List Frame) : rowSum (f :: fs) = f.rows + rowSum fs := rfl

lemma rowSum_take_le (fs : List Frame) (k : Nat) : rowSum (fs.take k) ≤ rowSum fs := by
  induction fs generalizing k with
  | nil => rw [take_nil]
  | cons f fs ih =>
    cases k with
    | zero => exact Nat.zero_le _
    | succ k =>
      rw [take_succ_cons, rowSum_cons, rowSum_cons]
      exact Nat.add_le_add_left (ih k) _

section
variable {lz4 : Lz4} {sha : Sha256}

/-! ## frames -/

lemma length_frameHeader (f : Frame) : (frameHeader lz4 sha f).length = frameHeaderLen := by
  unfold frameHeader frameHeaderLen
  simp only [length_append, length_le32, sha.length_digest]

lemma length_encodeFrame (lz4 : Lz4) (sha : Sha256) (f : Frame) :
    (encodeFrame lz4 sha f).length = frameHeaderLen + (lz4.compress f.bytes).length := by
  unfold encodeFrame
  rw [length_append, length_frameHeader]

variable {f : Frame}

lemma Frame.Fits.compressed_le (h : f.Fits) :
    (lz4.compress f.bytes).length ≤ maxFrame + maxFrame / 255 + 16 := by
  have hb := lz4.length_compress f.bytes
  have hd : f.bytes.length / 255 ≤ maxFrame / 255 := Nat.div_le_div_right h.2.1
  have hl := h.2.1
  omega

lemma compressed_pos (lz4 : Lz4) (f : Frame) : 0 < (lz4.compress f.bytes).length :=
  length_pos_iff.mpr (lz4.compress_ne_nil f.bytes)

lemma read_frameHeader (lz4 : Lz4) (sha : Sha256) (h : f.Fits) :
    ofLe32 ((frameHeader lz4 sha f).take 4) = (lz4.compress f.bytes).length ∧
      ofLe32 (((frameHeader lz4 sha f).drop 4).take 4) = f.bytes.length ∧
      ofLe32 (((frameHeader lz4 sha f).drop 8).take 4) = f.rows ∧
      (frameHeader lz4 sha f).drop 12 = sha.digest f.bytes := by
  have hc : (lz4.compress f.bytes).length < 2 ^ 32 :=
    lt_of_le_of_lt h.compressed_le (by decide)
  have hr : f.bytes.length < 2 ^ 32 := lt_of_le_of_lt h.2.1 (by decide)
  refine ⟨?_, ?_, ?_, rfl⟩
  · exact ofLe32_le32 hc
  · exact ofLe32_le32 hr
  · exact ofLe32_le32 f.rows_lt

/-! ## what is appended -/

lemma append_ok {s s' : Segment} {written : Bool} (h : s.append lz4 sha f written = (s', none)) :
    f.Fits ∧ s.rows + f.rows < 2 ^ 32 ∧
      s' = ⟨s.file ++ encodeFrame lz4 sha f, s.hash ++ frameHeader lz4 sha f, s.rows + f.rows,
        s.rawBytes + f.bytes.length⟩ := by
  unfold Segment.append at h
  by_cases hbad : f.bytes.isEmpty ∨ maxFrame < f.bytes.length ∨ f.rows = 0
  · rw [if_pos hbad] at h
    cases h
  · rw [if_neg hbad] at h
    cases written with
    | false => cases h
    | true =>
      simp only [Bool.not_true, Bool.false_eq_true, if_false, checkedAdd] at h
      by_cases hsum : s.rows + f.rows < 2 ^ 32
      · rw [if_pos hsum] at h
        cases h
        refine ⟨⟨?_, ?_, ?_⟩, hsum, rfl⟩
        · intro hnil
          exact hbad (.inl (isEmpty_iff.mpr hnil))
        · exact Nat.le_of_not_lt fun hlt => hbad (.inr (.inl hlt))
        · intro hz
          exact hbad (.inr (.inr hz))
      · rw [if_neg hsum] at h
        cases h

variable {fs : List Frame}

lemma appendAll_ok {s s' : Segment} (hs : s.rows < 2 ^ 32) (h : s.appendAll lz4 sha fs = .ok s') :
    (∀ f ∈ fs, f.Fits) ∧ s.rows + rowSum fs < 2 ^ 32 ∧
      s'.file = s.file ++ (fs.map (encodeFrame lz4 sha)).flatten ∧
      s'.hash = s.hash ++ (fs.map (frameHeader lz4 sha)).flatten ∧ s'.rows = s.rows + rowSum fs := by
  induction fs generalizing s with
  | nil =>
    cases h
    exact ⟨forall_mem_nil _, hs, (append_nil _).symm, (append_nil _).symm, rfl⟩
  | cons f fs ih =>
    rw [Segment.appendAll] at h
    rcases ha : s.append lz4 sha f true with ⟨s₁, _ | e⟩
    · rw [ha] at h
      obtain ⟨hfit, hsum, rfl⟩ := append_ok ha
      obtain ⟨hfits, hsums, hfile, hhash, hrows⟩ := ih hsum h
      refine ⟨forall_mem_cons.mpr ⟨hfit, hfits⟩, ?_, ?_, ?_, ?_⟩
      · rw [rowSum_cons, ← Nat.add_assoc]
        exact hsums
      · rw [hfile, map_cons, flatten_cons, append_assoc]
      · rw [hhash, map_cons, flatten_cons, append_assoc]
      · rw [hrows, rowSum_cons, Nat.add_assoc]
    · rw [ha] at h
      cases h

/-! ## one turn of the scan -/

variable {c : Cursor} {recovery : Bool}

lemma scanTurn_short (h : c.rest.length < frameHeaderLen) :
    scanTurn lz4 sha recovery c = atEof recovery c := by
  unfold scanTurn
  exact if_pos h

lemma scanTurn_header {rest : Bytes} (hf : f.Fits) (hc : c.rest = frameHeader lz4 sha f ++ rest) :
    scanTurn lz4 sha recovery c =
      scanBody lz4 sha recovery c (frameHeader lz4 sha f) rest (lz4.compress f.bytes).length
        f.bytes.length f.rows := by
  have hlen : (frameHeader lz4 sha f).length = frameHeaderLen := length_frameHeader f
  have hnot : ¬ c.rest.length < frameHeaderLen := by
    rw [hc, length_append, hlen]
    omega
  have htake : c.rest.take frameHeaderLen = frameHeader lz4 sha f := by
    rw [hc, ← hlen]
    exact take_left
  have hdrop : c.rest.drop frameHeaderLen = rest := by
    rw [hc, ← hlen]
    exact drop_left
  obtain ⟨hclen, hrlen, hn, -⟩ := read_frameHeader lz4 sha hf
  have hpos := compressed_pos lz4 f
  have hraw : f.bytes.length ≠ 0 := by
    intro hz
    exact hf.1 (length_eq_zero_iff.mp hz)
  have hzero : ¬ ((lz4.compress f.bytes).length = 0 ∧ f.bytes.length = 0) := fun h => hraw h.2
  have hle : (lz4.compress f.bytes).length ≤ maxFrame + maxFrame / 255 + 16 := hf.compressed_le
  have hbounds : ¬ (f.bytes.length = 0 ∨ maxFrame < f.bytes.length ∨
      maxFrame + maxFrame / 255 + 16 < (lz4.compress f.bytes).length ∨ f.rows = 0) := by
    rintro (hz | hz | hz | hz)
    · exact hraw hz
    · exact absurd hf.2.1 (not_le.mpr hz)
    · exact absurd hle (not_le.mpr hz)
    · exact hf.2.2 hz
  unfold scanTurn
  simp only [if_neg hnot, htake, hdrop, hclen, hrlen, hn, if_neg hzero, if_neg hbounds]

lemma scanTurn_frame {rest : Bytes} (hf : f.Fits) (hc : c.rest = encodeFrame lz4 sha f ++ rest)
    (hrows : c.rows + f.rows < 2 ^ 32) : scanTurn lz4 sha recovery c =
      .ok (.next ⟨rest, c.rows + f.rows, c.offset + (encodeFrame lz4 sha f).length,
        c.hash ++ frameHeader lz4 sha f, c.frames ++ [f.bytes]⟩) := by
  have hc' : c.rest = frameHeader lz4 sha f ++ (lz4.compress f.bytes ++ rest) := by
    rw [hc, encodeFrame, append_assoc]
  rw [scanTurn_header hf hc']
  have hnot : ¬ (lz4.compress f.bytes ++ rest).length < (lz4.compress f.bytes).length := by
    rw [length_append]
    omega
  have hdig : (frameHeader lz4 sha f).drop 12 = sha.digest f.bytes := rfl
  unfold scanBody
  simp only [if_neg hnot, take_left, drop_left, lz4.decompress_compress, hdig, ne_eq,
    not_true_eq_false, or_self, if_false, checkedAdd, if_pos hrows, length_encodeFrame]

lemma scanTurn_cut {n : Nat} (hf : f.Fits) (hc : c.rest = (encodeFrame lz4 sha f).take n)
    (hn : n < (encodeFrame lz4 sha f).length) : scanTurn lz4 sha recovery c = atEof recovery c := by
  have hlen : (frameHeader lz4 sha f).length = frameHeaderLen := length_frameHeader f
  have henc := length_encodeFrame lz4 sha f
  have hrest : c.rest.length = n := by
    rw [hc, length_take]
    omega
  by_cases hshort : n < frameHeaderLen
  · exact scanTurn_short (by omega)
  · have hc' : c.rest = frameHeader lz4 sha f ++ (lz4.compress f.bytes).take (n - frameHeaderLen) := by
      rw [hc, encodeFrame, take_append, hlen, take_of_length_le (by omega)]
    rw [scanTurn_header hf hc']
    unfold scanBody
    refine if_pos ?_
    rw [length_take]
    omega

lemma length_footer (rows : Nat) (hash : Bytes) : (footer sha rows hash).length = frameHeaderLen := by
  unfold footer
  simp only [length_append, length_replicate, length_le32, sha.length_digest]
  rfl

lemma scanTurn_footer (hc : c.rest = footer sha c.rows c.hash) (hrows : c.rows < 2 ^ 32) :
    scanTurn lz4 sha recovery c = .ok (.done none) := by
  have hlen : (footer sha c.rows c.hash).length = frameHeaderLen := length_footer _ _
  have hnot : ¬ c.rest.length < frameHeaderLen := by
    rw [hc, hlen]
    exact Nat.lt_irrefl _
  have htake : c.rest.take frameHeaderLen = footer sha c.rows c.hash := by
    rw [hc, ← hlen]
    exact take_length
  have hdrop : c.rest.drop frameHeaderLen = [] := by
    rw [hc, ← hlen]
    exact drop_length
  have hcl : ofLe32 ((footer sha c.rows c.hash).take 4) = 0 := rfl
  have hrl : ofLe32 (((footer sha c.rows c.hash).drop 4).take 4) = 0 := rfl
  have hn : ofLe32 (((footer sha c.rows c.hash).drop 8).take 4) = c.rows := ofLe32_le32 hrows
  have hdig : (footer sha c.rows c.hash).drop 12 = sha.digest c.hash := rfl
  unfold scanTurn
  simp only [if_neg hnot, htake, hdrop, hcl, hrl, hn, hdig, and_self, if_true, ne_eq,
    not_true_eq_false, or_self, if_false]
  rfl

/-! ## the whole scan -/

lemma scanLoop_frames {token rest : Bytes} (fuel : Nat) (hf : ∀ f ∈ fs, f.Fits)
    (hc : c.rest = (fs.map (encodeFrame lz4 sha)).flatten ++ rest)
    (hrows : c.rows + rowSum fs < 2 ^ 32) : scanLoop lz4 sha recovery token (fs.length + fuel) c =
      scanLoop lz4 sha recovery token fuel
        ⟨rest, c.rows + rowSum fs, c.offset + (fs.map (encodeFrame lz4 sha)).flatten.length,
          c.hash ++ (fs.map (frameHeader lz4 sha)).flatten, c.frames ++ fs.map (·.bytes)⟩ := by
  induction fs generalizing c with
  | nil =>
    obtain ⟨crest, crows, coffset, chash, cframes⟩ := c
    have hrest : crest = rest := hc
    rw [hrest]
    simp [rowSum]
  | cons f fs ih =>
    obtain ⟨hfit, hfits⟩ := forall_mem_cons.mp hf
    rw [rowSum_cons] at hrows
    rw [map_cons, flatten_cons, append_assoc] at hc
    have hturn : scanTurn lz4 sha recovery c = _ := scanTurn_frame hfit hc (by omega)
    rw [length_cons, Nat.succ_add, scanLoop, hturn]
    refine (ih hfits rfl (by show c.rows + f.rows + rowSum fs < _; omega)).trans ?_
    simp only [map_cons, flatten_cons, length_append, rowSum_cons, append_assoc,
      cons_append, nil_append, Nat.add_assoc]

def image (lz4 : Lz4) (sha : Sha256) (id : Token) (fs : List Frame) (tail : Bytes) : Bytes :=
  magic ++ id.toList ++ ((fs.map (encodeFrame lz4 sha)).flatten ++ tail)

/-- what has been hashed at the end of the frames -/
def hashed (lz4 : Lz4) (sha : Sha256) (id : Token) (fs : List Frame) : Bytes :=
  magic ++ id.toList ++ (fs.map (frameHeader lz4 sha)).flatten

/-- where the scan stands at the end of the frames -/
def behind (lz4 : Lz4) (sha : Sha256) (id : Token) (fs : List Frame) (tail : Bytes) : Cursor :=
  ⟨tail, rowSum fs, 24 + (fs.map (encodeFrame lz4 sha)).flatten.length, hashed lz4 sha id fs,
    fs.map (·.bytes)⟩

lemma length_fileHeader (id : Token) : (magic ++ id.toList).length = 24 := by
  rw [length_append, Vector.length_toList]
  rfl

lemma length_le_encoded (lz4 : Lz4) (sha : Sha256) (fs : List Frame) :
    fs.length ≤ (fs.map (encodeFrame lz4 sha)).flatten.length := by
  induction fs with
  | nil => exact Nat.le_refl 0
  | cons f fs ih =>
    have hpos := compressed_pos lz4 f
    rw [map_cons, flatten_cons, length_append, length_cons, length_encodeFrame]
    omega

variable {id : Token}

lemma scan_image {tail : Bytes} {hash : Option Bytes} (hf : ∀ f ∈ fs, f.Fits)
    (hrows : rowSum fs < 2 ^ 32)
    (hend : scanTurn lz4 sha recovery (behind lz4 sha id fs tail) = .ok (.done hash)) :
    scan lz4 sha recovery (image lz4 sha id fs tail) =
      .ok ⟨id.toList, rowSum fs, 24 + (fs.map (encodeFrame lz4 sha)).flatten.length, hash,
        fs.map (·.bytes)⟩ := by
  have hhead : (magic ++ id.toList).length = 24 := length_fileHeader id
  have hlen : (image lz4 sha id fs tail).length =
      24 + ((fs.map (encodeFrame lz4 sha)).flatten ++ tail).length := by
    unfold image
    rw [length_append, hhead]
  have hnot : ¬ (image lz4 sha id fs tail).length < 24 := by omega
  have htake : (image lz4 sha id fs tail).take 24 = magic ++ id.toList := by
    unfold image
    rw [← hhead]
    exact take_left
  have hdrop : (image lz4 sha id fs tail).drop 24 = (fs.map (encodeFrame lz4 sha)).flatten ++ tail := by
    unfold image
    rw [← hhead]
    exact drop_left
  have hmagic : (image lz4 sha id fs tail).take 8 = magic := rfl
  have htoken : ((image lz4 sha id fs tail).drop 8).take 16 = id.toList := by
    have hd : (image lz4 sha id fs tail).drop 8 =
        id.toList ++ ((fs.map (encodeFrame lz4 sha)).flatten ++ tail) := rfl
    rw [hd]
    exact take_left' Vector.length_toList
  have hfuel : ∃ k, (image lz4 sha id fs tail).length + 1 = fs.length + (k + 1) := by
    have hle := length_le_encoded lz4 sha fs
    rw [length_append] at hlen
    exact ⟨(image lz4 sha id fs tail).length - fs.length, by omega⟩
  obtain ⟨k, hk⟩ := hfuel
  unfold scan
  rw [if_neg hnot, if_neg (not_not.mpr hmagic), htoken, hdrop, htake, hk,
    scanLoop_frames (k + 1) hf rfl (by show 0 + rowSum fs < _; omega)]
  show scanLoop lz4 sha recovery id.toList (k + 1) ⟨tail, 0 + rowSum fs, _, hashed lz4 sha id fs, _⟩ = _
  rw [Nat.zero_add]
  show scanLoop lz4 sha recovery id.toList (k + 1) (behind lz4 sha id fs tail) = _
  rw [scanLoop, hend]
  rfl

/-- the sealed segment with these frames -/
def sealedFile (lz4 : Lz4) (sha : Sha256) (id : Token) (fs : List Frame) : Bytes :=
  image lz4 sha id fs (footer sha (rowSum fs) (hashed lz4 sha id fs))

lemma scan_sealedFile (hf : ∀ f ∈ fs, f.Fits) (hrows : rowSum fs < 2 ^ 32) :
    scan lz4 sha recovery (sealedFile lz4 sha id fs) =
      .ok ⟨id.toList, rowSum fs, 24 + (fs.map (encodeFrame lz4 sha)).flatten.length, none,
        fs.map (·.bytes)⟩ :=
  scan_image hf hrows (scanTurn_footer rfl hrows)

/-! ## recovery -/

/-- `k` is the number of frames that are whole within the first `cut` bytes -/
def WholeFrames (lz4 : Lz4) (sha : Sha256) (fs : List Frame) (cut k : Nat) : Prop :=
  k ≤ fs.length ∧ 24 + offset (fs.map (encodeFrame lz4 sha)) k ≤ cut ∧
    ∀ f, fs[k]? = some f →
      cut < 24 + offset (fs.map (encodeFrame lz4 sha)) k + (encodeFrame lz4 sha f).length

lemma seal_eq {s : Segment} (h : (Segment.create id).appendAll lz4 sha fs = .ok s) :
    s.seal sha = sealedFile lz4 sha id fs := by
  obtain ⟨-, -, hfile, hhash, hrows⟩ := appendAll_ok (Nat.two_pow_pos 32) h
  have hsum : s.rows = rowSum fs := hrows.trans (Nat.zero_add _)
  unfold Segment.seal sealedFile image
  rw [hfile, hhash, hsum, append_assoc]
  rfl

variable {d : SpoolDir} {stem : String}

/-- the complete frames are kept, and the segment is sealed behind them -/
lemma recover_image {tail : Bytes} (hf : ∀ f ∈ fs, f.Fits) (hrows : rowSum fs < 2 ^ 32)
    (hfile : d.files.lookup (stem, .isOpen) = some (image lz4 sha id fs tail))
    (hend : scanTurn lz4 sha true (behind lz4 sha id fs tail) =
      atEof true (behind lz4 sha id fs tail)) :
    d.recover lz4 sha stem = .ok (d.promote stem (sealedFile lz4 sha id fs)) := by
  have hscan : scan lz4 sha true (image lz4 sha id fs tail) = _ := scan_image hf hrows hend
  have hhead : (magic ++ id.toList).length = 24 := length_fileHeader id
  have hnot : ¬ (image lz4 sha id fs tail).length < 24 := by
    unfold image
    rw [length_append, hhead]
    omega
  have htake : (image lz4 sha id fs tail).take
      (24 + (fs.map (encodeFrame lz4 sha)).flatten.length) =
        magic ++ id.toList ++ (fs.map (encodeFrame lz4 sha)).flatten := by
    unfold image
    rw [← append_assoc, ← hhead, ← length_append]
    exact take_left
  unfold recover
  simp only [hfile, if_neg hnot, hscan, htake]
  unfold Segment.seal sealedFile image behind
  rw [append_assoc]

lemma recover_sealedFile (hf : ∀ f ∈ fs, f.Fits) (hrows : rowSum fs < 2 ^ 32)
    (hfile : d.files.lookup (stem, .isOpen) = some (sealedFile lz4 sha id fs)) :
    d.recover lz4 sha stem = .ok (d.promote stem (sealedFile lz4 sha id fs)) := by
  have hscan : scan lz4 sha true (sealedFile lz4 sha id fs) = _ := scan_sealedFile hf hrows
  have hnot : ¬ (sealedFile lz4 sha id fs).length < 24 := by
    unfold sealedFile image
    rw [length_append, length_fileHeader]
    omega
  unfold recover
  simp only [hfile, if_neg hnot, hscan]

lemma offset_append {xs ys : List Bytes} {k : Nat} (h : k ≤ xs.length) :
    offset (xs ++ ys) k = offset xs k := by
  unfold offset
  rw [take_append_of_le_length h]

/-- **what recovery leaves of a segment that was cut off anywhere behind its header is the sealed
segment with the frames that are whole** -/
theorem recover_cut {cut : Nat} (hf : ∀ f ∈ fs, f.Fits) (hrows : rowSum fs < 2 ^ 32)
    (hcut : 24 ≤ cut)
    (hfile : d.files.lookup (stem, .isOpen) = some ((sealedFile lz4 sha id fs).take cut)) :
    ∃ k, WholeFrames lz4 sha fs cut k ∧
      d.recover lz4 sha stem = .ok (d.promote stem (sealedFile lz4 sha id (fs.take k))) := by
  have hhead : (magic ++ id.toList).length = 24 := length_fileHeader id
  let encs := fs.map (encodeFrame lz4 sha)
  let foot := footer sha (rowSum fs) (hashed lz4 sha id fs)
  have hbody : sealedFile lz4 sha id fs = magic ++ id.toList ++ (encs ++ [foot]).flatten := by
    unfold sealedFile image
    rw [flatten_append, flatten_singleton]
  have htake : (sealedFile lz4 sha id fs).take cut =
      magic ++ id.toList ++ (encs ++ [foot]).flatten.take (cut - 24) := by
    rw [hbody, take_append, hhead, take_of_length_le (hhead.trans_le hcut)]
  have hlen : encs.length = fs.length := length_map _
  obtain ⟨k, hk, hle, hin⟩ := exists_cut (encs ++ [foot]) (cut - 24)
  rw [length_append, length_singleton, hlen] at hk
  have hfits : ∀ f ∈ fs.take k, f.Fits := fun f h => hf f (mem_of_mem_take h)
  have hsum : rowSum (fs.take k) < 2 ^ 32 := lt_of_le_of_lt (rowSum_take_le fs k) hrows
  have hwhole (hle : offset encs fs.length ≤ cut - 24) : WholeFrames lz4 sha fs cut fs.length := by
    refine ⟨Nat.le_refl _, ?_, ?_⟩
    · show 24 + offset encs fs.length ≤ cut
      omega
    · intro f hkf
      rw [getElem?_eq_none (Nat.le_refl _)] at hkf
      cases hkf
  rcases Nat.lt_trichotomy k fs.length with hlt | heq | hgt
  · -- the cut is within a frame
    have hget : (encs ++ [foot])[k]? = some (encodeFrame lz4 sha fs[k]) := by
      rw [getElem?_append_left (by omega), getElem?_map, getElem?_eq_getElem hlt]
      rfl
    have hin := hin _ hget
    rw [take_cut hget hle hin, take_append_of_le_length (by omega), ← map_take] at htake
    rw [offset_append (by omega)] at hle hin htake
    refine ⟨k, ⟨by omega, ?_, ?_⟩, ?_⟩
    · show 24 + offset encs k ≤ cut
      omega
    · intro f hkf
      rw [getElem?_eq_getElem hlt] at hkf
      cases hkf
      show cut < 24 + offset encs k + _
      omega
    · rw [htake] at hfile
      have hfit := hf _ (getElem_mem hlt)
      exact recover_image hfits hsum hfile (scanTurn_cut hfit rfl (by omega))
  · -- the cut is within the footer
    subst heq
    have hget : (encs ++ [foot])[fs.length]? = some foot := by
      rw [getElem?_append_right (by omega), hlen, Nat.sub_self]
      rfl
    have hin := hin _ hget
    have hfoot : foot.length = frameHeaderLen := length_footer _ _
    rw [take_cut hget hle hin, take_append_of_le_length (by omega),
      take_of_length_le hlen.le] at htake
    rw [offset_append (by omega)] at hle hin htake
    refine ⟨fs.length, hwhole hle, ?_⟩
    rw [htake] at hfile
    rw [take_length]
    refine recover_image hf hrows hfile (scanTurn_short ?_)
    show (foot.take _).length < frameHeaderLen
    rw [length_take]
    omega
  · -- the file is complete
    obtain rfl : k = fs.length + 1 := by omega
    have hall : offset (encs ++ [foot]) (fs.length + 1) = (encs ++ [foot]).flatten.length := by
      unfold offset
      rw [take_of_length_le (by rw [length_append, hlen]; rfl)]
    rw [hall] at hle
    rw [take_of_length_le hle, ← hbody] at htake
    rw [flatten_append, length_append] at hle
    have hoff : offset encs fs.length = encs.flatten.length := by
      unfold offset
      rw [take_of_length_le hlen.le]
    refine ⟨fs.length, hwhole (by omega), ?_⟩
    rw [htake] at hfile
    rw [take_length]
    exact recover_sealedFile hf hrows hfile

/-! ## a second recovery -/

variable {d' : SpoolDir}

/-- recovery takes one `.open` file away, and touches the files of no other stem -/
lemma recover_ok (h : d.recover lz4 sha stem = .ok d') :
    d'.manifest = d.manifest ∧ d'.files.lookup (stem, .isOpen) = none ∧
      ∀ s, s ≠ stem → ∀ e, d'.files.lookup (s, e) = d.files.lookup (s, e) := by
  have hother : ∀ {s : String} {e e' : Extension}, s ≠ stem → (s, e) ≠ (stem, e') := by
    intro s e e' hs heq
    exact hs (Prod.mk.inj heq).1
  have hremove : (d.remove stem).files.lookup (stem, .isOpen) = none ∧
      ∀ s, s ≠ stem → ∀ e, (d.remove stem).files.lookup (s, e) = d.files.lookup (s, e) := by
    unfold remove
    refine ⟨lookup_erase _ _, ?_⟩
    intro s hs e
    exact lookup_erase_ne (hother hs)
  have hpromote : ∀ file, (d.promote stem file).files.lookup (stem, .isOpen) = none ∧
      ∀ s, s ≠ stem → ∀ e, (d.promote stem file).files.lookup (s, e) = d.files.lookup (s, e) := by
    intro file
    unfold promote
    constructor
    · have hne : (stem, Extension.isOpen) ≠ (stem, Extension.ready) := by
        intro heq
        cases (Prod.mk.inj heq).2
      rw [lookup_insert_ne hne]
      exact lookup_erase _ _
    · intro s hs e
      rw [lookup_insert_ne (hother hs)]
      exact lookup_erase_ne (hother hs)
  unfold recover at h
  split at h
  · cases h
  · split at h
    · cases h
      exact ⟨rfl, hremove⟩
    · split at h
      · cases h
      · split at h
        · cases h
          exact ⟨rfl, hpromote _⟩
        · cases h
          exact ⟨rfl, hpromote _⟩

lemma recoverAll_ok {stems : List String} (h : SpoolDir.recoverAll lz4 sha d stems = .ok d') :
    d'.manifest = d.manifest ∧
      (∀ s ∈ stems, d'.files.lookup (s, .isOpen) = none) ∧
      ∀ s, s ∉ stems → ∀ e, d'.files.lookup (s, e) = d.files.lookup (s, e) := by
  induction stems generalizing d with
  | nil =>
    cases h
    exact ⟨rfl, forall_mem_nil _, fun s _ e => rfl⟩
  | cons stem stems ih =>
    rw [recoverAll] at h
    cases hr : d.recover lz4 sha stem with
    | error e =>
      rw [hr] at h
      cases h
    | ok d₁ =>
      rw [hr] at h
      obtain ⟨hm₁, hgone₁, hkeep₁⟩ := recover_ok hr
      obtain ⟨hm, hgone, hkeep⟩ := ih h
      refine ⟨hm.trans hm₁, ?_, ?_⟩
      · intro s hs
        by_cases hin : s ∈ stems
        · exact hgone s hin
        · rcases mem_cons.mp hs with rfl | hs
          · rw [hkeep s hin]
            exact hgone₁
          · exact absurd hs hin
      · intro s hs e
        rw [mem_cons, not_or] at hs
        rw [hkeep s hs.2 e, hkeep₁ s hs.1 e]

lemma mem_openStems {s : String} :
    s ∈ d.openStems ↔ (d.files.lookup (s, .isOpen)).isSome = true := by
  unfold SpoolDir.openStems
  rw [mem_filterMap, AList.lookup_isSome, AList.mem_keys]
  constructor
  · rintro ⟨k, hk, hs⟩
    obtain ⟨he, heq⟩ := Option.ite_none_right_eq_some.mp hs
    cases heq
    rw [← he]
    exact hk
  · intro hk
    exact ⟨(s, .isOpen), hk, if_pos rfl⟩

lemma openStems_recoverAll (h : SpoolDir.recoverAll lz4 sha d d.openStems = .ok d') :
    d'.openStems = [] := by
  obtain ⟨-, hgone, hkeep⟩ := recoverAll_ok h
  refine eq_nil_iff_forall_not_mem.mpr fun s hs => ?_
  rw [mem_openStems] at hs
  by_cases hin : s ∈ d.openStems
  · rw [hgone s hin] at hs
    cases hs
  · rw [hkeep s hin, ← mem_openStems] at hs
    exact hin hs

lemma manifestOf_accepted (sha : Sha256) (stream : Token) (destination : Bytes) :
    let bytes := manifestOf sha stream destination
    ¬ (bytes.length < 48 ∨ (bytes.drop 16).take (bytes.length - 32 - 16) ≠ destination ∨
        sha.digest (bytes.take (bytes.length - 32)) ≠ bytes.drop (bytes.length - 32)) ∧
      bytes.take 16 = stream.toList := by
  intro bytes
  have hlen : bytes.length = 16 + destination.length + 32 := by
    unfold bytes manifestOf
    rw [length_append, length_append, Vector.length_toList, sha.length_digest]
  have hstream : stream.toList.length = 16 := Vector.length_toList
  have hboth : (stream.toList ++ destination).length = bytes.length - 32 := by
    rw [length_append, hstream]
    omega
  have hbytes : bytes = stream.toList ++ (destination ++ sha.digest (stream.toList ++ destination)) :=
    append_assoc _ _ _
  have hdest : (bytes.drop 16).take (bytes.length - 32 - 16) = destination := by
    have hn : bytes.length - 32 - 16 = destination.length := by omega
    rw [hn, hbytes, drop_left' hstream]
    exact take_left
  have htake : bytes.take (bytes.length - 32) = stream.toList ++ destination := take_left' hboth
  have hdrop : bytes.drop (bytes.length - 32) = sha.digest (stream.toList ++ destination) :=
    drop_left' hboth
  refine ⟨?_, ?_⟩
  · rintro (h | h | h)
    · omega
    · exact h hdest
    · rw [htake, hdrop] at h
      exact h rfl
  · rw [hbytes]
    exact take_left' hstream

variable {destination : Bytes}

lemma openSpool_of_manifest {bytes : Bytes} {stream : Token} (hm : d.manifest = some bytes)
    (hok : ¬ (bytes.length < 48 ∨ (bytes.drop 16).take (bytes.length - 32 - 16) ≠ destination ∨
      sha.digest (bytes.take (bytes.length - 32)) ≠ bytes.drop (bytes.length - 32)))
    (hnil : d.openStems = []) :
    d.openSpool lz4 sha destination stream = .ok (bytes.take 16, d) := by
  unfold openSpool
  simp only [hm, if_neg hok, hnil]
  rfl

lemma openSpool_keeps {bytes : Bytes} {stream : Token}
    (h : d.openSpool lz4 sha destination stream = .ok (bytes, d')) (hnot : stem ∉ d.openStems)
    (e : Extension) : d'.files.lookup (stem, e) = d.files.lookup (stem, e) := by
  unfold openSpool at h
  split at h
  · split at h
    · cases h
    · split at h
      · next d₁ hr =>
        cases h
        exact (recoverAll_ok hr).2.2 stem hnot e
      · cases h
  · split at h
    · cases h
    · simp only [] at h
      split at h
      · next d₁ hr =>
        cases h
        exact (recoverAll_ok hr).2.2 stem hnot e
      · cases h

lemma openSpool_again {bytes : Bytes} {stream : Token}
    (h : d.openSpool lz4 sha destination stream = .ok (bytes, d')) (fresh : Token) :
    d'.openSpool lz4 sha destination fresh = .ok (bytes, d') := by
  unfold openSpool at h
  split at h
  · next b hm =>
    split at h
    · cases h
    · next hok =>
      split at h
      · next d₁ hr =>
        cases h
        obtain ⟨hman, -, -⟩ := recoverAll_ok hr
        exact openSpool_of_manifest (hman.trans hm) hok (openStems_recoverAll hr)
      · cases h
  · split at h
    · cases h
    · simp only [] at h
      split at h
      · next d₁ hr =>
        cases h
        obtain ⟨hman, -, -⟩ := recoverAll_ok hr
        obtain ⟨hok, htake⟩ := manifestOf_accepted sha stream destination
        rw [← htake]
        exact openSpool_of_manifest hman hok (openStems_recoverAll hr)
      · cases h

end

/-- a block that is not compressed at all, behind one byte -/
def storedLz4 : Lz4 where
  compress b := 0 :: b
  decompress c _ := some (c.drop 1)
  decompress_compress b := rfl
  compress_ne_nil b := cons_ne_nil _ _
  length_compress := by
    intro b
    rw [length_cons]
    omega

def lengthSha : Sha256 := ⟨fun b => replicate 32 (BitVec.ofNat 8 b.length), fun _ => length_replicate⟩

def twoFrames : List Frame := [⟨[1, 2, 3], 2, by decide⟩, ⟨[4, 5], 1, by decide⟩]

def zeroToken : Token := Vector.replicate 16 0

def twoFramesSegment : Segment where
  file := magic ++ zeroToken.toList ++ (twoFrames.map (encodeFrame storedLz4 lengthSha)).flatten
  hash := magic ++ zeroToken.toList ++ (twoFrames.map (frameHeader storedLz4 lengthSha)).flatten
  rows := 3
  rawBytes := 5

/-- a crash within the second frame -/
def crashedDir : SpoolDir :=
  ⟨none, AList.singleton ("a", .isOpen) ((twoFramesSegment.seal lengthSha).take 100)⟩

end Netom.ClickHouse
