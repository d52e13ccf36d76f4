import Espresso.Proofs.Shot

/-!
The language of the blobs of shots: which bytes are read, what the others are refused for, and what
the bytes that are read are written back as.
-/

namespace Espresso

namespace Packed

theorem wordOf_lt (bytes : Bytes) : wordOf bytes < 4294967296 := by
  unfold wordOf
  split
  · next a b c d _ =>
    have ha := a.toNat_lt
    have hb := b.toNat_lt
    have hc := c.toNat_lt
    have hd := d.toNat_lt
    omega
  · decide

theorem word_wordOf {bytes : Bytes} (h : 4 ≤ bytes.length) :
    word (wordOf bytes) = bytes.take 4 := by
  obtain ⟨a, b, c, d, rest, rfl⟩ : ∃ a b c d rest, bytes = a :: b :: c :: d :: rest := by
    match bytes, h with
    | a :: b :: c :: d :: rest, _ => exact ⟨a, b, c, d, rest, rfl⟩
  have ha := a.toNat_lt
  have hb := b.toNat_lt
  have hc := c.toNat_lt
  have hd := d.toNat_lt
  simp only [word, wordOf, List.take_succ_cons, List.take_zero, List.cons.injEq, and_true,
    ← UInt8.toNat_inj, UInt8.toNat_ofNat']
  omega

end Packed

namespace ShotBlob

variable {limit : Nat} {bytes : Bytes} {shots : List Shot}

def checks (limit : Nat) (bytes : Bytes) : List (Bool × BlobError) :=
  let count := bytes.getD 5 0
  [(6 ≤ bytes.length, .tooShort),
    ((Text.toBytes "BRSH").isPrefixOf bytes, .badMagic),
    (bytes.getD 4 0 = 1, .unsupportedVersion (bytes.getD 4 0)),
    (count.toNat ≤ limit, .tooManyRecords count),
    (6 + 36 * count.toNat ≤ bytes.length, .truncated count ((bytes.length - 6) / 36))]

def fault? (limit : Nat) (bytes : Bytes) : Option BlobError :=
  ((checks limit bytes).find? fun c => !c.1).map Prod.snd

structure Accepted (limit : Nat) (bytes : Bytes) : Prop where
  header : 6 ≤ bytes.length
  magic : Text.toBytes "BRSH" <+: bytes
  version : bytes.getD 4 0 = 1
  count : (bytes.getD 5 0).toNat ≤ limit
  whole : 6 + 36 * (bytes.getD 5 0).toNat ≤ bytes.length

/-- How a byte at a place among the records is written back: the last three bytes of a record are of
no use, and a rating above five is none. -/
def settled (place : Nat) (byte : UInt8) : UInt8 :=
  if 32 < place % 36 ∨ place % 36 = 32 ∧ 5 < byte then 0 else byte

def canonical (bytes : Bytes) : Bytes :=
  (bytes.take (6 + 36 * (bytes.getD 5 0).toNat)).mapIdx fun i byte =>
    if i < 6 then byte else settled (i - 6) byte

theorem fault?_eq_none : fault? limit bytes = none ↔ Accepted limit bytes := by
  simp only [fault?, checks, Option.map_eq_none_iff, List.find?_eq_none, List.forall_mem_cons,
    Bool.not_eq_true', Bool.not_eq_false, decide_eq_true_eq, List.isPrefixOf_iff_prefix]
  constructor
  · rintro ⟨header, magic, version, count, whole, -⟩
    exact ⟨header, magic, version, count, whole⟩
  · rintro ⟨header, magic, version, count, whole⟩
    exact ⟨header, magic, version, count, whole, by simp⟩

theorem elim_fault? (limit : Nat) (bytes : Bytes) (answer : Except BlobError (List Shot)) :
    (fault? limit bytes).elim answer .error =
      (checks limit bytes).foldr (fun c rest => if c.1 then rest else .error c.2) answer := by
  unfold fault?
  induction checks limit bytes with
  | nil => rfl
  | cons c cs ih =>
    obtain ⟨holds, e⟩ := c
    cases holds with
    | false => rfl
    | true => exact ih

theorem decode_eq (limit : Nat) (bytes : Bytes) :
    decode limit bytes = (fault? limit bytes).elim
      (.ok (records (bytes.getD 5 0).toNat (bytes.drop 6))) .error := by
  have hmagic : bytes.take 4 = magic ↔ (Text.toBytes "BRSH").isPrefixOf bytes = true := by
    rw [List.isPrefixOf_iff_prefix, List.prefix_iff_eq_take, eq_comm]
    rfl
  rw [elim_fault?, decode]
  simp only [checks, List.foldr_cons, List.foldr_nil, decide_eq_true_eq, headerSize, recordSize,
    version, List.length_drop]
  by_cases header : 6 ≤ bytes.length
  · have hwhole : bytes.length - 6 < (bytes.getD 5 0).toNat * 36 ↔
        ¬6 + 36 * (bytes.getD 5 0).toNat ≤ bytes.length := by omega
    simp only [if_pos header, hmagic, hwhole, ← Nat.not_le, ne_eq, ite_not]
  · rw [if_pos (Nat.not_le.mp header), if_neg header]

theorem getD_ratingOf (n : UInt8) : (Shot.ratingOf n).getD 0 = n := by
  unfold Shot.ratingOf
  split
  · next h => exact h.symm
  · rfl

theorem rating_shotOf (bytes : Bytes) :
    (shotOf bytes).rating.getD 0 = settled 32 (bytes.getD 32 0) := by
  have hsettled (n : UInt8) : settled 32 n = if n ≤ 5 then n else 0 := by
    simp [settled, ← UInt8.not_le]
  show (if bytes.getD 32 0 ≤ 5 then Shot.ratingOf (bytes.getD 32 0) else none).getD 0 = _
  rw [hsettled]
  split
  · exact getD_ratingOf _
  · rfl

theorem mapIdx_settled {bytes : Bytes} (h : bytes.length = 36) :
    bytes.mapIdx settled = bytes.take 32 ++ [settled 32 (bytes.getD 32 0), 0, 0, 0] := by
  have hwords : (bytes.take 32).mapIdx settled = bytes.take 32 := by
    apply List.ext_getElem
    · rw [List.length_mapIdx]
    · intro i hi _
      rw [List.length_mapIdx, List.length_take] at hi
      rw [List.getElem_mapIdx, settled, if_neg (by omega)]
  obtain ⟨rating, a, b, c, hrest⟩ : ∃ rating a b c, bytes.drop 32 = [rating, a, b, c] := by
    have hlength : (bytes.drop 32).length = 4 := by rw [List.length_drop, h]
    match bytes.drop 32, hlength with
    | [rating, a, b, c], _ => exact ⟨rating, a, b, c, rfl⟩
  have hrating : bytes.getD 32 0 = rating := by
    have hget := congrArg (fun bs => bs.getD 0 0) hrest
    simpa using hget
  conv => lhs; rw [← List.take_append_drop 32 bytes]
  rw [List.mapIdx_append, hwords, hrest, hrating, List.length_take, h]
  rfl

theorem record_shotOf {bytes : Bytes} (h : bytes.length = 36) :
    record (shotOf bytes) = bytes.mapIdx settled := by
  have word {place : Nat} (hp : place < 8) :
      Packed.word (Packed.wordOf (bytes.drop (4 * place))) = (bytes.drop (4 * place)).take 4 :=
    Packed.word_wordOf (by rw [List.length_drop]; omega)
  have count {place : Nat} (hp : place < 8) : Packed.word
      (UInt32.ofNat (Packed.wordOf (bytes.drop (4 * place)))).toNat =
        (bytes.drop (4 * place)).take 4 := by
    rw [UInt32.toNat_ofNat', Nat.mod_eq_of_lt (Packed.wordOf_lt _), word hp]
  have single {place : Nat} (hp : place < 8) : Packed.single
      (Binary.ofBits (Packed.wordOf (bytes.drop (4 * place)))) =
        (bytes.drop (4 * place)).take 4 := by
    rw [Packed.single, Binary.toBits_ofBits (Packed.wordOf_lt _), word hp]
  rw [mapIdx_settled h, record, rating_shotOf]
  simp only [shotOf]
  rw [count (by decide), single (by decide), single (by decide), count (by decide),
    count (by decide), single (by decide), single (by decide), single (by decide)]
  rw [Nat.mul_zero, List.drop_zero]
  simp only [← List.take_add]

theorem settled_add (place : Nat) : settled (place + 36) = settled place := by
  funext byte
  rw [settled, Nat.add_mod_right, settled]

theorem flatMap_record_records {count : Nat} (h : 36 * count ≤ bytes.length) :
    (records count bytes).flatMap record = (bytes.take (36 * count)).mapIdx settled := by
  induction count generalizing bytes with
  | zero => rfl
  | succ count ih =>
    have hrecord : (bytes.take 36).length = 36 := by rw [List.length_take]; omega
    have hrest : 36 * count ≤ (bytes.drop 36).length := by rw [List.length_drop]; omega
    rw [Nat.mul_succ, Nat.add_comm (36 * count), List.take_add, List.mapIdx_append, hrecord]
    simp only [settled_add]
    rw [← record_shotOf hrecord, ← ih hrest]
    rfl

theorem length_records (count : Nat) (bytes : Bytes) : (records count bytes).length = count := by
  induction count generalizing bytes with
  | zero => rfl
  | succ count ih => rw [records, List.length_cons, ih]

theorem take_six (h : Accepted limit bytes) :
    bytes.take 6 = magic ++ [version, bytes.getD 5 0] := by
  have header := h.header
  have hmagic : bytes.take 4 = magic := (List.prefix_iff_eq_take.mp h.magic).symm
  have hrest : (bytes.drop 4).take 2 = [version, bytes.getD 5 0] := by
    rw [List.drop_eq_getElem_cons (by omega), List.drop_eq_getElem_cons (by omega),
      List.getElem_eq_getD 0, List.getElem_eq_getD 0, h.version]
    rfl
  rw [← hmagic, ← hrest, ← List.take_add]

theorem encode_records (h : Accepted limit bytes) :
    encode (records (bytes.getD 5 0).toNat (bytes.drop 6)) = canonical bytes := by
  have header := h.header
  have whole := h.whole
  have hbody : 36 * (bytes.getD 5 0).toNat ≤ (bytes.drop 6).length := by
    rw [List.length_drop]
    omega
  have hsix : (bytes.take 6).length = 6 := by
    rw [List.length_take]
    omega
  have hhead : ((bytes.take 6).mapIdx fun i byte => if i < 6 then byte else settled (i - 6) byte) =
      bytes.take 6 := by
    apply List.ext_getElem
    · rw [List.length_mapIdx]
    · intro i hi _
      rw [List.length_mapIdx, hsix] at hi
      rw [List.getElem_mapIdx, if_pos hi]
  have hbehind : (fun i byte => if i + 6 < 6 then byte else settled (i + 6 - 6) byte) =
      settled := by
    funext i byte
    rw [if_neg (by omega), Nat.add_sub_cancel]
  rw [encode, flatMap_record_records hbody, length_records, UInt8.ofNat_toNat, canonical,
    List.take_add, List.mapIdx_append, hhead, hsix, hbehind, take_six h]
  simp only [List.append_assoc, List.cons_append, List.nil_append]

theorem decode_eq_ok (h : decode limit bytes = .ok shots) : Accepted limit bytes ∧
    shots = records (bytes.getD 5 0).toNat (bytes.drop 6) := by
  rw [decode_eq] at h
  cases hf : fault? limit bytes with
  | some e =>
    rw [hf] at h
    cases h
  | none =>
    rw [hf] at h
    exact ⟨fault?_eq_none.mp hf, (Except.ok.inj h).symm⟩

theorem length_of_decode (h : decode limit bytes = .ok shots) : shots.length ≤ limit := by
  obtain ⟨accepted, rfl⟩ := decode_eq_ok h
  rw [length_records]
  exact accepted.count

theorem fault?_of_short (h : bytes.length < 6) : fault? limit bytes = some .tooShort := by
  rw [fault?, checks, List.find?_cons_of_pos (by simpa using h)]
  rfl

theorem fault?_of_cut {count : UInt8} (hcount : count.toNat ≤ limit)
    (hp : magic ++ [version, count] <+: bytes) (hcut : bytes.length < 6 + 36 * count.toNat) :
    fault? limit bytes = some (.truncated count ((bytes.length - 6) / 36)) := by
  have header : 6 ≤ bytes.length := hp.length_le
  have magic : (Text.toBytes "BRSH").isPrefixOf bytes = true :=
    List.isPrefixOf_iff_prefix.mpr ((List.prefix_append ..).trans hp)
  have version : bytes.getD 4 0 = 1 := by
    obtain ⟨body, rfl⟩ := hp
    rfl
  have declared : bytes.getD 5 0 = count := by
    obtain ⟨body, rfl⟩ := hp
    rfl
  subst declared
  rw [fault?, checks, List.find?_cons_of_neg (by simpa using header),
    List.find?_cons_of_neg (by simpa using magic), List.find?_cons_of_neg (by simpa using version),
    List.find?_cons_of_neg (by simpa using hcount), List.find?_cons_of_pos (by simpa using hcut)]
  rfl

end ShotBlob

namespace ShotHistory

variable {bytes : Bytes} {h : ShotHistory}

theorem ofBytes_eq_error (bytes : Bytes) (e : BlobError) :
    ofBytes bytes = .error e ↔ ShotBlob.fault? capacity bytes = some e := by
  rw [ofBytes, ShotBlob.decode_eq]
  cases ShotBlob.fault? capacity bytes with
  | none => simp [Except.map]
  | some f => simp [Except.map]

theorem ofBytes_eq_ok (ho : ofBytes bytes = .ok h) :
    ∃ shots, ShotBlob.decode capacity bytes = .ok shots ∧ h.toList = shots.reverse := by
  rw [ofBytes] at ho
  cases hd : ShotBlob.decode capacity bytes with
  | error e =>
    rw [hd] at ho
    cases ho
  | ok shots =>
    rw [hd] at ho
    obtain rfl := Except.ok.inj ho
    exact ⟨shots, rfl, toList_ofShots (ShotBlob.length_of_decode hd)⟩

theorem canonical_of_ofBytes (ho : ofBytes bytes = .ok h) :
    h.size = (bytes.getD 5 0).toNat ∧ h.toBytes = ShotBlob.canonical bytes := by
  obtain ⟨shots, hd, hl⟩ := ofBytes_eq_ok ho
  obtain ⟨accepted, rfl⟩ := ShotBlob.decode_eq_ok hd
  constructor
  · rw [← length_toList, hl, List.length_reverse, ShotBlob.length_records]
  · rw [toBytes, hl, List.reverse_reverse, ShotBlob.encode_records accepted]

theorem ofBytes_of_torn (hp : bytes <+: h.toBytes) (hne : bytes ≠ h.toBytes) :
    ofBytes bytes = .error (if bytes.length < 6 then .tooShort
      else .truncated (UInt8.ofNat h.size) ((bytes.length - 6) / 36)) := by
  have hcut : bytes.length < h.toBytes.length :=
    Nat.lt_of_le_of_ne hp.length_le fun hl => hne (hp.eq_of_length hl)
  rw [length_toBytes] at hcut
  rw [ofBytes_eq_error]
  split
  · next hshort => exact ShotBlob.fault?_of_short hshort
  · next hlong =>
    have hsize : h.size ≤ capacity := h.ring.size_le
    have hcount : (UInt8.ofNat h.size).toNat = h.size := by
      rw [UInt8.toNat_ofNat']
      exact Nat.mod_eq_of_lt (Nat.lt_of_le_of_lt hsize (by decide))
    have hheader : ShotBlob.magic ++ [ShotBlob.version, UInt8.ofNat h.size] <+: h.toBytes := by
      rw [toBytes, ShotBlob.encode, List.length_reverse, length_toList]
      exact ⟨_, List.append_assoc ..⟩
    have hbytes := List.prefix_of_prefix_length_le hheader hp (Nat.not_lt.mp hlong)
    exact ShotBlob.fault?_of_cut (by rwa [hcount]) hbytes (by rwa [hcount])

theorem ofBytes_exact (bytes : Bytes) :
    ((∃ h, ofBytes bytes = .ok h) ↔ ShotBlob.Accepted 50 bytes) ∧
    (∀ e, ofBytes bytes = .error e ↔ ShotBlob.fault? 50 bytes = some e) ∧
    (∀ h, ofBytes bytes = .ok h →
      h.size = (bytes.getD 5 0).toNat ∧ h.toBytes = ShotBlob.canonical bytes) ∧
    ∀ h : ShotHistory, bytes <+: h.toBytes → bytes ≠ h.toBytes →
      ofBytes bytes = .error (if bytes.length < 6 then .tooShort
        else .truncated (UInt8.ofNat h.size) ((bytes.length - 6) / 36)) := by
  refine ⟨?_, ofBytes_eq_error bytes, fun h => canonical_of_ofBytes, fun h => ofBytes_of_torn⟩
  constructor
  · rintro ⟨h, ho⟩
    obtain ⟨shots, hd, -⟩ := ofBytes_eq_ok ho
    exact (ShotBlob.decode_eq_ok hd).1
  · intro accepted
    have hd := ShotBlob.decode_eq 50 bytes
    rw [ShotBlob.fault?_eq_none.mpr accepted] at hd
    exact ⟨_, congrArg (Except.map ofShots) hd⟩

theorem ofBytes_exact_of_foreign_rating :
    let header : Bytes := [0x42, 0x52, 0x53, 0x48, 1, 1]
    let words : Bytes := List.replicate 32 7
    ∃ h, ofBytes (header ++ words ++ [9, 1, 2, 3, 0xFF]) = .ok h ∧ h.size = 1 ∧
      h.toBytes = header ++ words ++ [0, 0, 0, 0] ∧
      ofBytes (h.toBytes.take 41) = .error (.truncated 1 0) := by
  intro header words
  obtain ⟨haccepts, -, hcanonical, -⟩ := ofBytes_exact (header ++ words ++ [9, 1, 2, 3, 0xFF])
  obtain ⟨h, ho⟩ := haccepts.mpr ⟨by decide, by decide, by decide, by decide, by decide⟩
  obtain ⟨hsize, hbytes⟩ := hcanonical h ho
  have hsize : h.size = 1 := hsize
  have hbytes : h.toBytes = header ++ words ++ [0, 0, 0, 0] := hbytes.trans (by decide)
  obtain ⟨-, -, -, htorn⟩ := ofBytes_exact (h.toBytes.take 41)
  have hcut := htorn h (List.take_prefix ..) (by rw [hbytes]; decide)
  refine ⟨h, ho, hsize, hbytes, hcut.trans (congrArg _ ?_)⟩
  rw [hsize, hbytes]
  decide

end ShotHistory

end Espresso
