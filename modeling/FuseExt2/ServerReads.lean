import FuseExt2.Accesses
import FuseExt2.Server

/-! Reads through the server: what a request gets of a file, and that two
requests in a row get what one request over both ranges gets. -/

namespace FuseExt2

open ByteStore

/-- The file as the lookups show it, position by position. -/
def fileView (fs : Ext2) (node : Nat) : Memory := fun pos => fs.device (byteAddress fs (foundBlock fs node) pos)

theorem ext2ReadInodeData_eq_fileView {fs : Ext2} {node offset size : Nat} (hbs : 0 < fs.blockSize)
    (hfound : LookupsFound fs node offset size) (buff : Memory) :
    ext2ReadInodeData fs node offset size buff = .ok (memcpy buff 0 (fileView fs node) offset size) := by
  rw [ext2ReadInodeData_eq buff (foundBlock fs node) hbs hfound.dataToCopy_eq]
  congr 1
  funext a
  simp only [memcpy, fileView, Nat.zero_add]

/-- The block lookups of the file succeed, the one at its end included. -/
def BlocksInRange (fs : Ext2) (node : Nat) : Prop :=
  ∀ i ≤ inodeDataSize fs.device node / fs.blockSize, ∃ n, blockEntryAt fs node i = .ok n ∧ n < fs.blockcount

theorem BlocksInRange.lookupsFound {fs : Ext2} {node offset size : Nat} (h : BlocksInRange fs node)
    (hbs : 0 < fs.blockSize) (hle : offset + size ≤ inodeDataSize fs.device node) :
    LookupsFound fs node offset size := by
  intro i hl hu
  have hi : i ≤ inodeDataSize fs.device node / fs.blockSize := by
    rcases hu with rfl | hu
    · exact Nat.div_le_div_right (by omega)
    · rw [Nat.le_div_iff_mul_le hbs]
      omega
  obtain ⟨n, he, hn⟩ := h i hi
  have hmod : n % 2 ^ 16 < fs.blockcount := (Nat.mod_le n _).trans_lt hn
  refine ⟨n % 2 ^ 16 * fs.blockSize % 2 ^ 32, ?_⟩
  rw [blockEntryAt] at he
  rw [dataToCopy, he]
  simp only [ext2GetBlock_of_mod_lt hmod, deref_some]

theorem sizeToRead_eq (path : List UInt8) {o l : UInt32} (hsum : o.toNat + l.toNat < 2 ^ 32) (size : Nat) :
    sizeToRead ⟨path, o, l⟩ size = if o.toNat + l.toNat > size then size - o.toNat else l.toNat := by
  rw [sizeToRead]
  simp only [Nat.mod_eq_of_lt hsum]

/-- A request whose end fits in 32 bits gets its range of the file, clipped at the end. -/
theorem ext2ServiceRead_eq {fs : Ext2} {path : List UInt8} {node : Nat} (hbs : 0 < fs.blockSize)
    (hpath : ext2GetElementInode fs path = .ok (some node)) (hblocks : BlocksInRange fs node) {o l : UInt32}
    (hsum : o.toNat + l.toNat < 2 ^ 32) :
    ext2ServiceRead fs ⟨path, o, l⟩ = .ok {
      data := readBytes (fileView fs node) o.toNat (min l.toNat (inodeDataSize fs.device node - o.toNat))
      error := false
      errorCode := 0 } := by
  have hclip : min l.toNat (inodeDataSize fs.device node - o.toNat) =
      if o.toNat > inodeDataSize fs.device node then 0 else
        sizeToRead ⟨path, o, l⟩ (inodeDataSize fs.device node) := by
    rw [sizeToRead_eq path hsum]
    split_ifs <;> omega
  rw [hclip, ext2ServiceRead, hpath]
  by_cases hend : o.toNat > inodeDataSize fs.device node
  · simp only [if_pos hend]
    rfl
  · have hle : o.toNat + sizeToRead ⟨path, o, l⟩ (inodeDataSize fs.device node) ≤ inodeDataSize fs.device node := by
      rw [sizeToRead_eq path hsum]
      split_ifs <;> omega
    simp only [if_neg hend, ext2ReadInodeData_eq_fileView hbs (hblocks.lookupsFound hbs hle), readBytes_memcpy]

theorem ext2ServiceRead_append {fs : Ext2} {path : List UInt8} {node : Nat} (hbs : 0 < fs.blockSize)
    (hpath : ext2GetElementInode fs path = .ok (some node)) (hblocks : BlocksInRange fs node) {o m n : UInt32}
    (hsum : o.toNat + m.toNat + n.toNat < 2 ^ 32) :
    ∃ first second, ext2ServiceRead fs ⟨path, o, m⟩ = .ok ⟨first, false, 0⟩ ∧
      ext2ServiceRead fs ⟨path, o + m, n⟩ = .ok ⟨second, false, 0⟩ ∧
      ext2ServiceRead fs ⟨path, o, m + n⟩ = .ok ⟨first ++ second, false, 0⟩ := by
  have hom : (o + m).toNat = o.toNat + m.toNat := by
    rw [UInt32.toNat_add, Nat.mod_eq_of_lt (by omega)]
  have hmn : (m + n).toNat = m.toNat + n.toNat := by
    rw [UInt32.toNat_add, Nat.mod_eq_of_lt (by omega)]
  refine ⟨_, _, ext2ServiceRead_eq hbs hpath hblocks (by omega), ext2ServiceRead_eq hbs hpath hblocks (by omega), ?_⟩
  rw [ext2ServiceRead_eq hbs hpath hblocks (by omega), hom, hmn]
  congr 2
  -- past the end of the file both sides stop with the first piece
  by_cases hfit : m.toNat ≤ inodeDataSize fs.device node - o.toNat
  · have hlen : min (m.toNat + n.toNat) (inodeDataSize fs.device node - o.toNat) =
        m.toNat + min n.toNat (inodeDataSize fs.device node - (o.toNat + m.toNat)) := by
      omega
    rw [hlen, Nat.min_eq_left hfit, readBytes_append]
  · have hlen : min (m.toNat + n.toNat) (inodeDataSize fs.device node - o.toNat) =
        min m.toNat (inodeDataSize fs.device node - o.toNat) := by
      omega
    have hnone : min n.toNat (inodeDataSize fs.device node - (o.toNat + m.toNat)) = 0 := by omega
    rw [hlen, hnone]
    exact (List.append_nil _).symm

theorem fileFs_blocksInRange : BlocksInRange (fileFs 10) 6528 := by
  intro i hi
  obtain rfl : i = 0 := by
    have : inodeDataSize (fileFs 10).device 6528 / (fileFs 10).blockSize = 0 := by decide
    omega
  exact ⟨8, rfl, by decide⟩

theorem ext2ServiceRead_append_sample : ∃ first second,
    ext2ServiceRead (fileFs 10) ⟨[slash, 0x66], 2, 3⟩ = .ok ⟨first, false, 0⟩ ∧
    ext2ServiceRead (fileFs 10) ⟨[slash, 0x66], 2 + 3, 9⟩ = .ok ⟨second, false, 0⟩ ∧
    ext2ServiceRead (fileFs 10) ⟨[slash, 0x66], 2, 3 + 9⟩ = .ok ⟨first ++ second, false, 0⟩ :=
  ext2ServiceRead_append (by decide) rfl fileFs_blocksInRange (by decide)

end FuseExt2
