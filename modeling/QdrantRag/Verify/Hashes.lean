import QdrantRag.Verify.Sample

/-! # What a content hash tells

The hash of a list of items is that of their contents, each ended by the unit separator U+001F. A
content may have the separator in it, so the hash identifies the contents cut at the separators
(`hashInput_eq_iff`), and not always the items. -/

namespace QdrantRag
open Text

/-! ## Digests -/

theorem utf8_append (s t : String) : utf8 (s ++ t) = utf8 s ++ utf8 t := by
  unfold utf8
  rw [String.toUTF8_eq_toByteArray, String.toByteArray_append, ByteArray.data_append,
    Array.toList_append]
  rfl

theorem hexDigit_inj : ∀ m < 16, ∀ n < 16,
    hexDigit (UInt8.ofNat m) = hexDigit (UInt8.ofNat n) → m = n := by
  decide

/-- A byte is told by its two digits. -/
theorem eq_of_hexDigits {b b' : UInt8} (hhigh : hexDigit (b / 16) = hexDigit (b' / 16))
    (hlow : hexDigit (b % 16) = hexDigit (b' % 16)) : b = b' := by
  have hofNat (b : UInt8) : UInt8.ofNat b.toNat = b := UInt8.ofNat_toNat
  have hb := b.toNat_lt
  have hb' := b'.toNat_lt
  rw [← hofNat (b / 16), ← hofNat (b' / 16)] at hhigh
  rw [← hofNat (b % 16), ← hofNat (b' % 16)] at hlow
  have hdiv := hexDigit_inj _ (by rw [UInt8.toNat_div]; simp; omega) _
    (by rw [UInt8.toNat_div]; simp; omega) hhigh
  have hmod := hexDigit_inj _ (by rw [UInt8.toNat_mod]; simp; omega) _
    (by rw [UInt8.toNat_mod]; simp; omega) hlow
  rw [UInt8.toNat_div, UInt8.toNat_div] at hdiv
  rw [UInt8.toNat_mod, UInt8.toNat_mod] at hmod
  apply UInt8.toNat_inj.mp
  simp only [UInt8.reduceToNat] at hdiv hmod
  omega

theorem hexdigest_injective : Function.Injective Digest.hexdigest := by
  have hbytes (l l' : List UInt8)
      (h : (l.flatMap fun b => [hexDigit (b / 16), hexDigit (b % 16)]) =
        l'.flatMap fun b => [hexDigit (b / 16), hexDigit (b % 16)]) : l = l' := by
    induction l generalizing l' with
    | nil =>
      cases l' with
      | nil => rfl
      | cons b' l' => cases h
    | cons b l ih =>
      cases l' with
      | nil => cases h
      | cons b' l' =>
        simp only [List.flatMap_cons, List.cons_append, List.nil_append, List.cons.injEq] at h
        rw [eq_of_hexDigits h.1 h.2.1, ih l' h.2.2]
  intro d d' h
  have hlist := congrArg String.toList h
  unfold Digest.hexdigest at hlist
  rw [String.toList_ofList, String.toList_ofList] at hlist
  cases d with
  | mk bytes hlength =>
    cases d' with
    | mk bytes' hlength' =>
      obtain rfl := hbytes bytes bytes' hlist
      rfl

/-! ## Hash inputs -/

/-- The contents of the items, cut at the separators in them. -/
def segments (items : List UploadItem) : List (List Char) :=
  items.flatMap fun item => item.content.toList.splitOn '\x1f'

def contentsOf (items : List UploadItem) : List String := items.map UploadItem.content

theorem hashInput_eq_utf8 (items : List UploadItem) : hashInput items =
    utf8 (String.ofList ((items.map fun item => item.content.toList).flatMap (· ++ ['\x1f']))) := by
  induction items with
  | nil => decide
  | cons item items ih =>
    have hsep : utf8 (String.ofList ['\x1f']) = [0x1f] := by decide
    change utf8 item.content ++ [0x1f] ++ hashInput items = _
    rw [ih, List.map_cons, List.flatMap_cons, String.ofList_append, String.ofList_append,
      utf8_append, utf8_append, hsep, String.ofList_toList]

/-- What is hashed is the same if and only if the contents are when cut at the separators. -/
theorem hashInput_eq_iff {items items' : List UploadItem} :
    hashInput items = hashInput items' ↔ segments items = segments items' := by
  rw [hashInput_eq_utf8, hashInput_eq_utf8, utf8_inj, String.ofList_inj, terminated_eq_iff,
    List.flatMap_map, List.flatMap_map]
  rfl

/-- **What a content hash tells.** Where SHA-256 has no collision on what is hashed, lists of items
have one hash exactly when their contents are the same, and uploads without a hash of the client
have one only then, if and only if contents that are the same when cut at the separators are the
same. -/
theorem contentHash_identifies_iff (env : Env) (items items' : List UploadItem)
    (hsha : env.sha256 (hashInput items) = env.sha256 (hashInput items') →
      hashInput items = hashInput items') :
    ((computeContentHash env items = computeContentHash env items' ↔
        contentsOf items = contentsOf items') ↔
      (segments items = segments items' → contentsOf items = contentsOf items')) ∧
    ∀ body body' : UploadBody, body.items = items → body'.items = items' →
      strip ((getKey body.content_hash).getD "") = "" →
      strip ((getKey body'.content_hash).getD "") = "" →
      ((incomingHash env body = incomingHash env body' → contentsOf items = contentsOf items') ↔
        (segments items = segments items' → contentsOf items = contentsOf items')) := by
  have hhash : computeContentHash env items = computeContentHash env items' ↔
      segments items = segments items' := by
    rw [← hashInput_eq_iff]
    refine ⟨fun h => hsha (hexdigest_injective h), fun h => ?_⟩
    rw [computeContentHash, h]
    rfl
  have hcontents (h : contentsOf items = contentsOf items') : segments items = segments items' := by
    have hsegments (items : List UploadItem) : segments items =
        (contentsOf items).flatMap fun content => content.toList.splitOn '\x1f' := by
      rw [contentsOf, List.flatMap_map]
      rfl
    rw [hsegments, hsegments, h]
  constructor
  · rw [hhash]
    exact ⟨Iff.mp, fun h => ⟨h, hcontents⟩⟩
  · rintro body body' rfl rfl hblank hblank'
    have hincoming : incomingHash env body = computeContentHash env body.items := if_pos hblank
    have hincoming' : incomingHash env body' = computeContentHash env body'.items :=
      if_pos hblank'
    rw [hincoming, hincoming', hhash]

/-- SHA-256 on a few inputs. -/
def Sample.hashed : Env :=
  { Sample.env with
    sha256 := fun bytes => digest
      (if bytes = utf8 "a\x1fb\x1f" then
        0x023b8059a924f728a2155e4cc8b907389b6468b5ffba4905e3588ebe872d62d2
      else if bytes = utf8 "a\x1f" then
        0x69fc94c033d1f48cef62e24c0833e6baac18b6282855d12124d25f4c0bb75ac5
      else if bytes = utf8 "b\x1f" then
        0x338e4ea2c552f2dd2af9d275987d26f9278304d479b6895e3b918a1546d093f0
      else 0) }

def Sample.itemsOf (contents : List String) : List UploadItem :=
  contents.map fun content => ⟨content, [], none, none⟩

theorem contentHash_identifies_iff_letters :
    computeContentHash Sample.hashed (Sample.itemsOf ["a"]) =
        computeContentHash Sample.hashed (Sample.itemsOf ["b"]) ↔
      contentsOf (Sample.itemsOf ["a"]) = contentsOf (Sample.itemsOf ["b"]) := by
  refine (contentHash_identifies_iff Sample.hashed _ _ fun h => ?_).1.mpr fun h => ?_
  · have hdiffer : (Sample.hashed.sha256 (hashInput (Sample.itemsOf ["a"]))).bytes ≠
        (Sample.hashed.sha256 (hashInput (Sample.itemsOf ["b"]))).bytes := by decide +kernel
    exact absurd (congrArg Digest.bytes h) hdiffer
  · exact absurd h (by decide +kernel)

/-- A body of some items. -/
def Sample.bodyOf (contents : List String) : PyValue :=
  .dict [("items", .list (contents.map fun content => .dict [("content", .str content)]))]

/-- One item with a separator in it has the hash of two items, and both lists are accepted. -/
theorem separator_in_content :
    ((uploadBodySerializer Sample.web.drf (Sample.bodyOf ["a\x1fb"])).toOption.map
        UploadBody.items = some (Sample.itemsOf ["a\x1fb"]) ∧
      (uploadBodySerializer Sample.web.drf (Sample.bodyOf ["a", "b"])).toOption.map
        UploadBody.items = some (Sample.itemsOf ["a", "b"])) ∧
    computeContentHash Sample.hashed (Sample.itemsOf ["a\x1fb"]) =
      computeContentHash Sample.hashed (Sample.itemsOf ["a", "b"]) ∧
    contentsOf (Sample.itemsOf ["a\x1fb"]) ≠ contentsOf (Sample.itemsOf ["a", "b"]) := by
  decide +kernel

end QdrantRag
