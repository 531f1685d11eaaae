import Std.Data.String.ToNat
import Agentbox.Lib.PrefixCode
import Agentbox.Clean.Inventory

/-! # The hash of the image context

What `runtime/default_image.rs` hashes for the `ctx-` tag of the default images: path, contents
length and contents of each embedded file, each followed by a zero byte.

* `utf8_inj` and `zero_not_mem_utf8`: the bytes of a text.
* `isPrefixCode_fileBytes`: the bytes of a file show where they end, whatever its contents are.
* `contextBytes_injective`: no two lists of files are hashed from the same bytes. -/

namespace Agentbox.Image.ContextHash

open Agentbox.Base.Digest Agentbox.Clean.Inventory Agentbox.Lib.PrefixCode Agentbox.Runtime.Kind

/-! ### The bytes of a text -/

/-- `str::as_bytes`. -/
def utf8 (s : String) : List UInt8 := s.toUTF8.toList

theorem toList_loop (b : ByteArray) : ∀ (n i : Nat) (r : List UInt8), b.size - i = n →
    ByteArray.toList.loop b i r = r.reverse ++ b.data.toList.drop i
  | 0, i, r, hn => by
    have hsize : b.data.toList.length = b.size := rfl
    rw [ByteArray.toList.loop, if_neg (by omega), List.drop_eq_nil_of_le (by omega),
      List.append_nil]
  | n + 1, i, r, hn => by
    have hsize : b.data.toList.length = b.size := rfl
    have hi : i < b.data.toList.length := by omega
    have hget : b.get! i = b.data.toList[i] := by
      show b.data[i]! = _
      rw [getElem!_pos b.data i (by simpa using hi), Array.getElem_toList]
    rw [ByteArray.toList.loop, if_pos (by omega), toList_loop b n (i + 1) _ (by omega), hget,
      List.reverse_cons, List.append_assoc, List.drop_eq_getElem_cons hi]
    rfl

theorem utf8_eq (s : String) : utf8 s = s.toList.flatMap String.utf8EncodeChar := by
  have hloop : s.toUTF8.toList = s.toUTF8.data.toList := toList_loop s.toUTF8 _ 0 [] rfl
  have hbytes : s.toUTF8 = (s.toList.flatMap String.utf8EncodeChar).toByteArray :=
    String.utf8Encode_toList.symm
  rw [utf8, hloop, hbytes, List.toList_data_toByteArray]

theorem utf8_inj : Function.Injective utf8 := by
  intro s t h
  have hbytes : s.toList.utf8Encode = t.toList.utf8Encode :=
    congrArg List.toByteArray ((utf8_eq s).symm.trans (h.trans (utf8_eq t)))
  rw [String.utf8Encode_toList, String.utf8Encode_toList] at hbytes
  exact String.toByteArray_inj.1 hbytes

/-- Only the character NUL has a zero byte. -/
theorem zero_not_mem_utf8EncodeChar {c : Char} (hc : c ≠ Char.ofNat 0) :
    0 ∉ String.utf8EncodeChar c := by
  have hval : c.val.toNat ≠ 0 := fun h => hc (Char.ext (UInt32.toNat_inj.1 h))
  have hbyte : ∀ n, n % 256 ≠ 0 → (0 : UInt8) ≠ UInt8.ofNat n := by
    intro n hn h
    have hnat := congrArg UInt8.toNat h
    simp only [UInt8.toNat_ofNat'] at hnat
    exact hn hnat.symm
  unfold String.utf8EncodeChar
  intro hmem
  simp only at hmem
  split_ifs at hmem <;> simp only [List.mem_cons, List.not_mem_nil, or_false] at hmem
  · exact hbyte _ (by omega) hmem
  · rcases hmem with h | h <;> exact hbyte _ (by omega) h
  · rcases hmem with h | h | h <;> exact hbyte _ (by omega) h
  · rcases hmem with h | h | h | h <;> exact hbyte _ (by omega) h

theorem zero_not_mem_utf8 {s : String} (h : Char.ofNat 0 ∉ s.toList) : 0 ∉ utf8 s := by
  rw [utf8_eq, List.mem_flatMap]
  rintro ⟨c, hc, hzero⟩
  exact zero_not_mem_utf8EncodeChar (fun hnul => h (hnul ▸ hc)) hzero

/-! ### The files -/

structure EmbeddedDefaultImageFile where
  relativePath : String
  contents : List UInt8
  deriving DecidableEq

/-- What the hasher is updated with for one file. -/
def fileBytes (file : EmbeddedDefaultImageFile) : List UInt8 :=
  utf8 file.relativePath ++ [0] ++ (utf8 (Nat.repr file.contents.length) ++ [0] ++
    (file.contents ++ [0]))

/-- What the hasher is updated with for all of them. -/
def contextBytes (files : List EmbeddedDefaultImageFile) : List UInt8 := files.flatMap fileBytes

def imageContextHash (files : List EmbeddedDefaultImageFile) : String :=
  hexPrefix (sha256Bytes (contextBytes files)) IMAGE_CONTEXT_HASH_LEN

/-- `default_image` of a runtime, with the context of the given files. -/
def defaultImageOf (runtime : RuntimeKind) (files : List EmbeddedDefaultImageFile) : String :=
  defaultImageStem runtime ++ imageContextHash files

/-- The path of a file has no NUL. -/
def HasPath (file : EmbeddedDefaultImageFile) : Prop := Char.ofNat 0 ∉ file.relativePath.toList

theorem zero_not_mem_decimal (n : Nat) : 0 ∉ utf8 (Nat.repr n) := by
  refine zero_not_mem_utf8 fun hmem => ?_
  rw [Nat.toList_repr] at hmem
  exact absurd (Nat.isDigit_of_mem_toDigits (by decide) (by decide) hmem) (by decide)

theorem isPrefixCode_path : IsPrefixCode (fun p : String => 0 ∉ utf8 p) (fun p => utf8 p ++ [0]) :=
  (terminated (0 : UInt8)).comp utf8_inj

theorem isPrefixCode_length :
    IsPrefixCode (fun n : Nat => 0 ∉ utf8 (Nat.repr n)) (fun n => utf8 (Nat.repr n) ++ [0]) :=
  (terminated (0 : UInt8)).comp (utf8_inj.comp fun _ _ => Nat.repr_injective)

/-- Contents of a known length. -/
theorem isPrefixCode_contents (n : Nat) :
    IsPrefixCode (fun c : List UInt8 => c.length = n) (fun c => c ++ [0]) := by
  have hcode := (sized (n + 1)).comp (List.append_left_injective [(0 : UInt8)])
  exact hcode.mono fun c hc => by simp [hc]

theorem isPrefixCode_fileBytes : IsPrefixCode HasPath fileBytes := by
  have hpair := isPrefixCode_path.pair (Q := fun _ (x : Nat × List UInt8) =>
    0 ∉ utf8 (Nat.repr x.1) ∧ x.2.length = x.1) fun _ _ =>
    isPrefixCode_length.pair fun n _ => isPrefixCode_contents n
  have hparts : Function.Injective fun f : EmbeddedDefaultImageFile =>
      (f.relativePath, f.contents.length, f.contents) := by
    rintro ⟨p, c⟩ ⟨q, d⟩ h
    simp only [Prod.mk.injEq] at h
    rw [h.1, h.2.2]
  exact (hpair.comp hparts).mono fun f hf =>
    ⟨zero_not_mem_utf8 hf, zero_not_mem_decimal _, rfl⟩

theorem fileBytes_ne_nil (file : EmbeddedDefaultImageFile) : fileBytes file ≠ [] := by
  simp [fileBytes]

theorem contextBytes_injective {a b : List EmbeddedDefaultImageFile} (ha : ∀ f ∈ a, HasPath f)
    (hb : ∀ f ∈ b, HasPath f) (h : contextBytes a = contextBytes b) : a = b :=
  isPrefixCode_fileBytes.flatMap_injective fileBytes_ne_nil ha hb h

/-- **Equal bytes come from equal lists of files, and lists that differ have one image only where two
different messages have one hash.** -/
theorem image_context_injective (a b : List EmbeddedDefaultImageFile) (ha : ∀ f ∈ a, HasPath f)
    (hb : ∀ f ∈ b, HasPath f) :
    (contextBytes a = contextBytes b → a = b) ∧
      ∀ runtime, a ≠ b → defaultImageOf runtime a = defaultImageOf runtime b →
        contextBytes a ≠ contextBytes b ∧
          hexPrefix (sha256Bytes (contextBytes a)) IMAGE_CONTEXT_HASH_LEN =
            hexPrefix (sha256Bytes (contextBytes b)) IMAGE_CONTEXT_HASH_LEN := by
  refine ⟨contextBytes_injective ha hb, fun runtime hne htag => ⟨?_, ?_⟩⟩
  · exact fun hbytes => hne (contextBytes_injective ha hb hbytes)
  · exact (String.append_right_inj _).1 htag

def onceStored : List EmbeddedDefaultImageFile := [⟨"a", [0, 98, 0, 48, 0]⟩]

def twiceStored : List EmbeddedDefaultImageFile := [⟨"a", []⟩, ⟨"b", []⟩]

/-- Contents that look like the end of a file and the header of the next one. -/
theorem onceStored_ne_twiceStored : contextBytes onceStored ≠ contextBytes twiceStored := by
  have hpaths : (∀ f ∈ onceStored, HasPath f) ∧ ∀ f ∈ twiceStored, HasPath f := by
    simp [onceStored, twiceStored, HasPath]
  intro hbytes
  have heq := (image_context_injective onceStored twiceStored hpaths.1 hpaths.2).1 hbytes
  exact absurd heq (by decide)

end Agentbox.Image.ContextHash
