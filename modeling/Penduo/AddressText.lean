import Penduo.InetAddress

set_option autoImplicit false

namespace Penduo

open Sockets

structure Endpoint where
  family : UInt16
  ip : List UInt8
  port : ℕ
deriving DecidableEq, Repr

/-- What is documented of `::inet_ntop` and `::inet_pton` for `AF_INET6`. -/
structure PresentsInet6 (inetNtop6 : List UInt8 → String) (inetPton6 : String → Option (List UInt8)) : Prop where
  readBack : ∀ ip, ip.length = 16 → inetPton6 (inetNtop6 ip) = some ip
  colon : ∀ ip, ip.length = 16 → ':' ∈ (inetNtop6 ip).toList
  unbracketed : ∀ ip, ip.length = 16 → ']' ∉ (inetNtop6 ip).toList

namespace Endpoint

variable {inetNtop6 : List UInt8 → String} {inetPton6 : String → Option (List UInt8)} {host : ByteOrder}
  {addr ip : List UInt8}

def ofAddr (host : ByteOrder) (addr : List UInt8) : Endpoint :=
  { family := saFamily host addr
    ip := if saFamily host addr = afInet then field addr 4 4 else field addr 8 16
    port := ByteOrder.big.load (field addr 2 2) }

def ipOfText (inetPton6 : String → Option (List UInt8)) (text : List Char) : Option (UInt16 × List UInt8) :=
  if ':' ∈ text then (inetPton6 (String.ofList text)).map fun ip => (afInet6, ip)
  else some (afInet, (text.splitOn '.').map fun ds => UInt8.ofNat (Nat.ofDigitChars 10 ds 0))

def ofText (inetPton6 : String → Option (List UInt8)) (text : String) : Option Endpoint :=
  match text.toList.splitOn ']' with
  | ['[' :: ip, ':' :: port] =>
    (ipOfText inetPton6 ip).map fun r => ⟨r.1, r.2, Nat.ofDigitChars 10 port 0⟩
  | _ => none

theorem not_mem_decimal (n : ℕ) {c : Char} (hc : c.isDigit = false) : c ∉ (toString n).toList := by
  rw [Nat.toString_eq_repr, Nat.toList_repr]
  intro hmem
  simp [Nat.isDigit_of_mem_toDigits (by decide) (by decide) hmem] at hc

theorem read_decimal (n : ℕ) : Nat.ofDigitChars 10 (toString n).toList 0 = n := by
  rw [Nat.toString_eq_repr, Nat.toList_repr, Nat.ofDigitChars_ten_toDigits]

theorem toList_inetNtop4 (ip : List UInt8) :
    (inetNtop4 ip).toList = ['.'].intercalate (ip.map fun b => (toString b.toNat).toList) := by
  rw [inetNtop4, String.toList_intercalate, List.map_map]
  rfl

theorem not_mem_intercalate {sep : List Char} {ls : List (List Char)} {c : Char} (hsep : c ∉ sep)
    (hls : ∀ l ∈ ls, c ∉ l) : c ∉ sep.intercalate ls := by
  induction ls with
  | nil => simp
  | cons l ls ih =>
    cases ls with
    | nil => simpa using hls
    | cons l' ls =>
      rw [List.intercalate_cons_cons, List.mem_append, List.mem_append]
      rintro ((hl | hc) | hrest)
      · exact hls l List.mem_cons_self hl
      · exact hsep hc
      · exact ih (fun l hl => hls l (List.mem_cons_of_mem _ hl)) hrest

theorem not_mem_inetNtop4 (ip : List UInt8) {c : Char} (hc : c.isDigit = false) (hdot : c ≠ '.') :
    c ∉ (inetNtop4 ip).toList := by
  rw [toList_inetNtop4]
  apply not_mem_intercalate
  · simpa using hdot
  · intro l hl
    obtain ⟨b, _, rfl⟩ := List.mem_map.mp hl
    exact not_mem_decimal _ hc

theorem ipOfText_inetNtop4 (hne : ip ≠ []) : ipOfText inetPton6 (inetNtop4 ip).toList = some (afInet, ip) := by
  have hcolon := not_mem_inetNtop4 ip (c := ':') (by decide) (by decide)
  rw [ipOfText, if_neg hcolon, toList_inetNtop4, List.splitOn_intercalate, List.map_map]
  · have hread : ∀ b ∈ ip, UInt8.ofNat (Nat.ofDigitChars 10 (toString b.toNat).toList 0) = b := by
      intro b _
      rw [read_decimal, UInt8.ofNat_toNat]
    have hmap := (List.map_congr_left hread).trans (List.map_id' ip)
    exact congrArg (fun l => some (afInet, l)) hmap
  · intro l hl
    obtain ⟨b, _, rfl⟩ := List.mem_map.mp hl
    exact not_mem_decimal _ (by decide)
  · simpa using hne

theorem ipOfText_inetNtop6 (h : PresentsInet6 inetNtop6 inetPton6) (hlength : ip.length = 16) :
    ipOfText inetPton6 (inetNtop6 ip).toList = some (afInet6, ip) := by
  rw [ipOfText, if_pos (h.colon ip hlength), String.ofList_toList, h.readBack ip hlength]
  rfl

theorem ofText_bracketed (text : String) (port : ℕ) (hbracket : ']' ∉ text.toList) :
    ofText inetPton6 ("[" ++ text ++ "]:" ++ toString port) =
      (ipOfText inetPton6 text.toList).map fun r => ⟨r.1, r.2, port⟩ := by
  have htext : ("[" ++ text ++ "]:" ++ toString port).toList =
      [']'].intercalate ['[' :: text.toList, ':' :: (toString port).toList] := by
    simp [String.toList_append, List.intercalate]
  have hdecimal := not_mem_decimal port (c := ']') (by decide)
  have hparts : ∀ l ∈ ['[' :: text.toList, ':' :: (toString port).toList], ']' ∉ l := by
    intro l hl
    rcases List.mem_pair.mp hl with rfl | rfl
    · exact List.not_mem_cons_of_ne_of_not_mem (by decide) hbracket
    · exact List.not_mem_cons_of_ne_of_not_mem (by decide) hdecimal
  have hsplit := List.splitOn_intercalate ']' hparts (List.cons_ne_nil _ _)
  rw [ofText, htext, hsplit]
  simp only [read_decimal]

def text (inetNtop6 : List UInt8 → String) (e : Endpoint) : String :=
  "[" ++ (if e.family = afInet then inetNtop4 e.ip else inetNtop6 e.ip) ++ "]:" ++ toString e.port

structure Known (e : Endpoint) : Prop where
  family : e.family = afInet ∧ e.ip.length = 4 ∨ e.family = afInet6 ∧ e.ip.length = 16

theorem ofText_text (h : PresentsInet6 inetNtop6 inetPton6) {e : Endpoint} (he : e.Known) :
    ofText inetPton6 (e.text inetNtop6) = some e := by
  obtain ⟨family, ip, port⟩ := e
  rcases he.family with ⟨hfamily, hlength⟩ | ⟨hfamily, hlength⟩
  · obtain rfl : family = afInet := hfamily
    have hne : ip ≠ [] := List.ne_nil_of_length_pos (by simp_all)
    have hbracket := not_mem_inetNtop4 ip (c := ']') (by decide) (by decide)
    rw [text, if_pos rfl, ofText_bracketed _ _ hbracket, ipOfText_inetNtop4 hne]
    rfl
  · obtain rfl : family = afInet6 := hfamily
    have hne : afInet6 ≠ afInet := by decide
    rw [text, if_neg hne, ofText_bracketed _ _ (h.unbracketed ip hlength), ipOfText_inetNtop6 h hlength]
    rfl

theorem length_field {offset width : ℕ} (h : offset + width ≤ addr.length) :
    (field addr offset width).length = width := by
  rw [field, List.length_take, List.length_drop]
  omega

theorem ofAddr_known (hsize : addr.length = 28) (hfamily : saFamily host addr = afInet ∨ saFamily host addr = afInet6) :
    (ofAddr host addr).Known := by
  constructor
  rcases hfamily with hfamily | hfamily
  · refine Or.inl ⟨hfamily, ?_⟩
    simp only [ofAddr, hfamily, if_true]
    exact length_field (by omega)
  · have hne : afInet6 ≠ afInet := by decide
    refine Or.inr ⟨hfamily, ?_⟩
    simp only [ofAddr, hfamily, hne, if_false]
    exact length_field (by omega)

theorem networkToHost16_sinPort (hsize : addr.length = 28) :
    (networkToHost16 host (sinPort host addr)).toNat = ByteOrder.big.load (field addr 2 2) := by
  have hlength : (field addr 2 2).length = 2 := length_field (by omega)
  have hlt : ∀ o : ByteOrder, o.load (field addr 2 2) < 2 ^ 16 := by
    intro o
    have hload := o.load_lt (field addr 2 2)
    rwa [hlength] at hload
  have hreorder := ByteOrder.reorder_load host .big (field addr 2 2)
  rw [hlength] at hreorder
  have hport : (sinPort host addr).toNat = host.load (field addr 2 2) := by
    rw [sinPort, UInt16.toNat_ofNat', Nat.mod_eq_of_lt (hlt host)]
  rw [networkToHost16, UInt16.toNat_ofNat', hport, hreorder, Nat.mod_eq_of_lt (hlt .big)]

theorem toIpPort_eq_text (hsize : addr.length = 28)
    (hfamily : saFamily host addr = afInet ∨ saFamily host addr = afInet6) :
    toIpPort host inetNtop6 addr = .ok ((ofAddr host addr).text inetNtop6) := by
  have hport : (networkToHost16 host (sinPort host addr)).toNat = _ := networkToHost16_sinPort hsize
  have hne : afInet6 ≠ afInet := by decide
  rcases hfamily with hfamily | hfamily
  · simp only [toIpPort, toIp, hfamily, if_true, text, ofAddr, hport]
    rfl
  · simp only [toIpPort, toIp, hfamily, hne, if_true, if_false, text, ofAddr, hport]
    rfl

end Endpoint

section Text

variable {inetNtop6 : List UInt8 → String} {inetPton6 : String → Option (List UInt8)}

/-- The text of an address says which one it is, on any host, and only an address of another family has none. -/
theorem toIpPort_read_back (h : PresentsInet6 inetNtop6 inetPton6) (host : ByteOrder) (a : InetAddress) :
    (a.toIpPort host inetNtop6 = .error .fatal ↔ a.family host ≠ afInet ∧ a.family host ≠ afInet6) ∧
      ∀ text, a.toIpPort host inetNtop6 = .ok text →
        Endpoint.ofText inetPton6 text = some (Endpoint.ofAddr host a.addr.bytes) := by
  by_cases hfamily : a.family host = afInet ∨ a.family host = afInet6
  · have htext : a.toIpPort host inetNtop6 = _ := Endpoint.toIpPort_eq_text a.addr.size hfamily
    have hread := Endpoint.ofText_text h (Endpoint.ofAddr_known a.addr.size hfamily)
    rw [htext]
    refine ⟨⟨nofun, fun hunknown => ?_⟩, ?_⟩
    · rcases hfamily with hfamily | hfamily
      · exact absurd hfamily hunknown.1
      · exact absurd hfamily hunknown.2
    · rintro text ⟨⟩
      exact hread
  · rw [not_or] at hfamily
    have hfatal : a.toIpPort host inetNtop6 = .error .fatal := by
      simp only [InetAddress.family] at hfamily
      simp only [InetAddress.toIpPort, Sockets.toIpPort, hfamily.1, hfamily.2, if_false]
    rw [hfatal]
    exact ⟨⟨fun _ => hfamily, fun _ => rfl⟩, nofun⟩

def hexPair (b : UInt8) : List Char := [Nat.digitChar (b.toNat / 16), Nat.digitChar (b.toNat % 16)]

def hexGroups : List UInt8 → List (List Char)
  | a :: b :: ip => (hexPair a ++ hexPair b) :: hexGroups ip
  | _ => []

def hexValue (c : Char) : ℕ := if c.isDigit then c.toNat - 48 else c.toNat - 87

def unhex : List Char → List UInt8
  | c :: d :: cs => UInt8.ofNat (16 * hexValue c + hexValue d) :: unhex cs
  | _ => []

def fullNtop6 (ip : List UInt8) : String := String.ofList ([':'].intercalate (hexGroups ip))

def fullPton6 (text : String) : Option (List UInt8) := some ((text.toList.splitOn ':').flatMap unhex)

theorem hexValue_digitChar : ∀ n < 16, hexValue (Nat.digitChar n) = n := by decide

theorem digitChar_ne : ∀ n < 16, Nat.digitChar n ≠ ':' ∧ Nat.digitChar n ≠ ']' := by decide

theorem unhex_hexPair (b : UInt8) (cs : List Char) : unhex (hexPair b ++ cs) = b :: unhex cs := by
  have hb := b.toNat_lt
  have hhigh := hexValue_digitChar (b.toNat / 16) (by omega)
  have hlow := hexValue_digitChar (b.toNat % 16) (by omega)
  have hsum : 16 * (b.toNat / 16) + b.toNat % 16 = b.toNat := Nat.div_add_mod _ _
  simp only [hexPair, List.cons_append, List.nil_append, unhex, hhigh, hlow, hsum, UInt8.ofNat_toNat]

theorem not_mem_hexPair (b : UInt8) : ':' ∉ hexPair b ∧ ']' ∉ hexPair b := by
  have hb := b.toNat_lt
  have hhigh := digitChar_ne (b.toNat / 16) (by omega)
  have hlow := digitChar_ne (b.toNat % 16) (by omega)
  simp [hexPair, hhigh.1.symm, hhigh.2.symm, hlow.1.symm, hlow.2.symm]

theorem not_mem_hexGroups (ip : List UInt8) : ∀ l ∈ hexGroups ip, ':' ∉ l ∧ ']' ∉ l := by
  fun_induction hexGroups ip with
  | case1 a b ip ih =>
    have ha := not_mem_hexPair a
    have hb := not_mem_hexPair b
    intro l hl
    rcases List.mem_cons.mp hl with rfl | hl
    · simp [ha, hb]
    · exact ih l hl
  | case2 => exact nofun

theorem flatMap_hexGroups {ip : List UInt8} (h : ip.length % 2 = 0) : (hexGroups ip).flatMap unhex = ip := by
  fun_induction hexGroups ip with
  | case1 a b ip ih =>
    have hrest : ip.length % 2 = 0 := by
      rw [List.length_cons, List.length_cons] at h
      omega
    have hgroup : unhex (hexPair a ++ hexPair b) = [a, b] := by
      rw [unhex_hexPair, ← List.append_nil (hexPair b), unhex_hexPair]
      rfl
    rw [List.flatMap_cons, ih hrest, hgroup]
    rfl
  | case2 ip hshort =>
    match ip with
    | [] => rfl
    | [a] => simp at h
    | a :: b :: ip => exact absurd rfl (hshort a b ip)

theorem full_presents : PresentsInet6 fullNtop6 fullPton6 := by
  constructor
  · intro ip hlength
    have hne : hexGroups ip ≠ [] := by
      match ip with
      | a :: b :: ip => exact List.cons_ne_nil _ _
      | [] | [_] => simp at hlength
    have hsplit := List.splitOn_intercalate ':' (fun l hl => (not_mem_hexGroups ip l hl).1) hne
    rw [fullPton6, fullNtop6, String.toList_ofList, hsplit, flatMap_hexGroups (by omega)]
  · intro ip hlength
    rw [fullNtop6, String.toList_ofList]
    match ip with
    | a :: b :: c :: d :: ip =>
      rw [hexGroups, hexGroups, List.intercalate_cons_cons]
      simp
    | [] | [_] | [_, _] | [_, _, _] => simp at hlength
  · intro ip hlength
    rw [fullNtop6, String.toList_ofList]
    exact Endpoint.not_mem_intercalate (by decide) fun l hl => (not_mem_hexGroups ip l hl).2

def uniqueLocal : InetAddress :=
  ⟨[10, 0, 0x1f, 0x90, 0, 0, 0, 0, 0xfd, 0x12, 0x34, 0x56, 0x78, 0x9a, 0xbc, 0xde, 0xf0, 0x12, 0x34, 0x56, 0x78,
    0x9a, 0xbc, 0xde, 0, 0, 0, 0], rfl⟩

theorem toIpPort_read_back_uniqueLocal :
    uniqueLocal.toIpPort .little fullNtop6 = .ok "[fd12:3456:789a:bcde:f012:3456:789a:bcde]:8080" ∧
      Endpoint.ofText fullPton6 "[fd12:3456:789a:bcde:f012:3456:789a:bcde]:8080" =
        some (Endpoint.ofAddr .little uniqueLocal.addr.bytes) := by
  have htext : uniqueLocal.toIpPort .little fullNtop6 = .ok "[fd12:3456:789a:bcde:f012:3456:789a:bcde]:8080" := by
    decide +kernel
  exact ⟨htext, (toIpPort_read_back full_presents .little uniqueLocal).2 _ htext⟩

end Text

end Penduo
