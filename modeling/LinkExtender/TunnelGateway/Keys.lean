import LinkExtender.Library.Separators
import LinkExtender.TunnelGateway

/-!
# The keys of measurement endpoints

`createKeyFromEndpoint` names an endpoint by its text.  Where different addresses
have different texts, different endpoints have different keys.
-/

namespace LinkExtender

open Separators

/-! ## Decimal numbers -/

theorem toList_toString (n : ℕ) : (toString n).toList = Nat.toDigits 10 n := by
  simp

theorem toDigits_injective : Function.Injective (Nat.toDigits 10) := by
  intro m n h
  have hparsed := congrArg (fun digits ↦ Nat.ofDigitChars 10 digits 0) h
  simpa using hparsed

theorem notMem_toDigits {c : Char} (hc : c.isDigit = false) (n : ℕ) :
    c ∉ Nat.toDigits 10 n := by
  intro hmem
  rw [Nat.isDigit_of_mem_toDigits (by decide) (by decide) hmem] at hc
  cases hc

/-! ## Keys -/

namespace TunnelGateway

theorem createKeyFromEndpoint_injective {link : LinkLibrary}
    (haddress : Function.Injective link.addressToString) :
    Function.Injective (createKeyFromEndpoint link) := by
  rintro ⟨address, port⟩ ⟨address', port'⟩ h
  have hlist := congrArg String.toList h
  have hcolon : (":" : String).toList = [':'] := rfl
  simp only [createKeyFromEndpoint, String.toList_append, toList_toString, hcolon,
    List.append_assoc, List.singleton_append] at hlist
  -- an address may hold colons of its own, the port holds none
  obtain ⟨haddresses, hports⟩ := append_cons_inj_last (notMem_toDigits rfl _)
    (notMem_toDigits rfl _) hlist
  have hport : port.toNat = port'.toNat := toDigits_injective hports
  rw [haddress (String.toList_injective haddresses), UInt16.toNat_inj.mp hport]

end TunnelGateway

/-! ## The texts of version 1 -/

namespace LinkLibrary

theorem addressBytes_injective : Function.Injective addressBytes := by
  intro a b h
  simp only [addressBytes, List.cons.injEq, and_true] at h
  obtain ⟨h₁, h₂, h₃, h₄⟩ := h
  have h₁ := congrArg UInt8.toNat h₁
  have h₂ := congrArg UInt8.toNat h₂
  have h₃ := congrArg UInt8.toNat h₃
  have h₄ := congrArg UInt8.toNat h₄
  have ha := a.toNat_lt
  have hb := b.toNat_lt
  simp only [UInt32.toNat_toUInt8, UInt32.toNat_shiftRight, Nat.shiftRight_eq_div_pow,
    UInt32.reduceToNat, Nat.reduceMod, Nat.reducePow] at h₁ h₂ h₃ h₄
  apply UInt32.toNat_inj.mp
  omega

def digits (b : UInt8) : List Char := Nat.toDigits 10 b.toNat

theorem digits_injective : Function.Injective digits := by
  intro a b h
  exact UInt8.toNat_inj.mp (toDigits_injective h)

theorem notMem_digits {c : Char} (hc : c.isDigit = false) {bytes : List UInt8} {ds : List Char}
    (h : ds ∈ bytes.map digits) : c ∉ ds := by
  obtain ⟨b, -, rfl⟩ := List.mem_map.mp h
  exact notMem_toDigits hc _

theorem intercalate_digits_inj {c : Char} (hc : c.isDigit = false) {bytes bytes' : List UInt8}
    (hlen : bytes.length = bytes'.length)
    (h : [c].intercalate (bytes.map digits) = [c].intercalate (bytes'.map digits)) :
    bytes = bytes' := by
  apply digits_injective.list_map
  apply intercalate_inj _ (fun _ ↦ notMem_digits hc) (fun _ ↦ notMem_digits hc) h
  simpa using hlen

theorem toList_addressToString_v4 (address : UInt32) :
    (version1.addressToString (.v4 address)).toList =
      ['.'].intercalate ((addressBytes address).map digits) := by
  simp only [version1, String.toList_intercalate, List.map_map]
  congr 1
  apply List.map_congr_left
  intro b _
  exact toList_toString b.toNat

theorem toList_addressToString_v6 (bytes : Vector UInt8 16) (scopeId : UInt32) :
    (version1.addressToString (.v6 bytes scopeId)).toList =
      [':'].intercalate (bytes.toList.map digits) ++ '%' :: Nat.toDigits 10 scopeId.toNat := by
  have hpercent : ("%" : String).toList = ['%'] := rfl
  simp only [version1, String.toList_append, String.toList_intercalate, List.map_map,
    hpercent, toList_toString, List.append_assoc, List.singleton_append]
  congr 2
  apply List.map_congr_left
  intro b _
  exact toList_toString b.toNat

theorem v4_ne_v6 {address : UInt32} {bytes : Vector UInt8 16} {scopeId : UInt32} :
    version1.addressToString (.v4 address) ≠ version1.addressToString (.v6 bytes scopeId) := by
  intro h
  have hpercent : '%' ∈ (version1.addressToString (.v4 address)).toList := by
    rw [h, toList_addressToString_v6]
    simp
  rw [toList_addressToString_v4] at hpercent
  rcases mem_intercalate hpercent with hdot | ⟨ds, hds, hmem⟩
  · exact absurd hdot (by decide)
  · exact notMem_digits rfl hds hmem

theorem addressToString_injective_version1 : Function.Injective version1.addressToString := by
  intro a b h
  have hlist := congrArg String.toList h
  cases a with
  | v4 a =>
      cases b with
      | v4 b =>
          rw [toList_addressToString_v4, toList_addressToString_v4] at hlist
          have hbytes : addressBytes a = addressBytes b :=
            intercalate_digits_inj rfl rfl hlist
          rw [addressBytes_injective hbytes]
      | v6 bytes scopeId => exact absurd h v4_ne_v6
  | v6 bytes scopeId =>
      cases b with
      | v4 b => exact absurd h.symm v4_ne_v6
      | v6 bytes' scopeId' =>
          rw [toList_addressToString_v6, toList_addressToString_v6] at hlist
          obtain ⟨hbytes, hscope⟩ := append_cons_inj_last (notMem_toDigits rfl _)
            (notMem_toDigits rfl _) hlist
          have hscopeId : scopeId.toNat = scopeId'.toNat := toDigits_injective hscope
          have hsame : bytes.toList = bytes'.toList :=
            intercalate_digits_inj rfl (by simp) hbytes
          rw [UInt32.toNat_inj.mp hscopeId, Vector.toList_inj.mp hsame]

end LinkLibrary

end LinkExtender
