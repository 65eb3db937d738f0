import AVBox.Lib.Codes
import AVBox.Protocol.CallParts

/-!
# What a fingerprint stands for

The fingerprint of a submission is the SHA-256 of its client, its request id, its profile and the
digest of its object, joined by NUL characters.  As long as the hash tells the texts of two calls
apart, calls with one fingerprint asked for the same.
-/

namespace AVBox

namespace Document

lemma utf8Bytes_ne_nil (c : Fin 0x110000) : utf8Bytes c ≠ [] := by
  unfold utf8Bytes
  simp only
  split_ifs <;> exact List.cons_ne_nil _ _

lemma utf8Bytes_prefixFree : Codes.PrefixFree utf8Bytes := by
  intro c d rest rest' h
  have hc := c.isLt
  have hd := d.isLt
  refine Fin.ext ?_
  unfold utf8Bytes at h
  simp only at h
  split_ifs at h <;>
    simp only [List.cons_append, List.nil_append, List.cons.injEq, ← UInt8.toNat_inj,
      UInt8.toNat_ofNat'] at h <;> omega

end Document

namespace RABService

variable {env : SubmitEnv} {call other : Submission}

lemma encodeText_injective {text text' : PyStr} {bytes : Bytes} (h : encodeText text = .ok bytes)
    (h' : encodeText text' = .ok bytes) : text = text' := by
  have hencoded {text : PyStr} (h : encodeText text = .ok bytes) :
      text.flatMap Document.utf8Bytes = bytes := by
    unfold encodeText at h
    split at h
    · exact Except.ok.inj h
    · cases h
  exact Document.utf8Bytes_prefixFree.flatMap_injective Document.utf8Bytes_ne_nil
    ((hencoded h).trans (hencoded h').symm)

lemma ofString_injective : Function.Injective PyStr.ofString := by
  have hchar : Function.Injective fun c : Char => Fin.ofNat 0x110000 c.toNat := by
    intro c d h
    have hval := congrArg Fin.val h
    have hlt (c : Char) : c.toNat < 0x110000 := by
      obtain h | h := c.valid <;> simp only [Char.toNat] <;> omega
    simp only [Fin.val_ofNat, Nat.mod_eq_of_lt (hlt _)] at hval
    exact Char.toNat_inj.1 hval
  intro text text' h
  exact String.toList_inj.1 (List.map_injective_iff.2 hchar h)

lemma nul_not_mem_digest (digest : Digest 64) :
    (0 : Fin 0x110000) ∉ PyStr.ofString digest.val := by
  have hdigits :
      ("0123456789abcdef".toList.all fun c => decide (c.toNat % 0x110000 ≠ 0)) = true := by decide
  intro h
  obtain ⟨c, hc, hzero⟩ := List.mem_map.1 h
  have hdigit := List.all_eq_true.1 hdigits c (digest.2.2 c hc)
  exact of_decide_eq_true hdigit (congrArg Fin.val hzero)

/-- The text of a fingerprint is read back from its end: neither the digest nor the id of a profile
contains a NUL character. -/
lemma fingerprintText_injective {digest digest' : Digest 64} (hprofile : 0 ∉ call.profileId)
    (hprofile' : 0 ∉ other.profileId) (hclient : call.client.clientId = other.client.clientId)
    (h : fingerprintText call digest = fingerprintText other digest') :
    call.clientRequestId = other.clientRequestId ∧ call.profileId = other.profileId ∧
      digest = digest' := by
  obtain ⟨hfront, hdigest⟩ := Codes.append_separator_inj (nul_not_mem_digest digest)
    (nul_not_mem_digest digest') h
  obtain ⟨hfront, hid⟩ := Codes.append_separator_inj hprofile hprofile' hfront
  rw [hclient] at hfront
  exact ⟨(List.cons_inj_right _).1 (List.append_cancel_left hfront), hid,
    Subtype.ext (ofString_injective hdigest)⟩

end RABService

end AVBox
