import ClipboardHelper.Library.Bytes

/-!
# What a Linux paste consumer is given

The payload of a clipboard offer is turned into the format that the consumer
asked for: text as it is, a list of paths by `uri_list_format.cpp`, a WebP
picture by `webp_decode.cpp` and a re-encoding.  Formats are named by MIME
types, which the consumer chooses freely.

What `libwebp` and Qt do with pixels is a parameter.
-/

namespace PasteFormats

open Library

/-- The kinds of content that the Linux backends announce. -/
inductive ContentKind
  | text
  | image
  | files
deriving DecidableEq, Repr

/-! ## File lists -/

def isUriPathSafe (c : UInt8) : Bool :=
  (0x41 ≤ c && c ≤ 0x5A) || (0x61 ≤ c && c ≤ 0x7A) || (0x30 ≤ c && c ≤ 0x39)
    || c = 0x2D || c = 0x5F || c = 0x2E || c = 0x7E || c = 0x2F

/-- An upper-case hexadecimal digit. -/
def hexDigit (n : Nat) : UInt8 := UInt8.ofNat (if n < 10 then 48 + n else 55 + n)

def percentEncodePath (path : Bytes) : Bytes :=
  path.flatMap (fun c =>
    if isUriPathSafe c then [c] else [0x25, hexDigit (c.toNat / 16), hexDigit (c.toNat % 16)])

/-- A line without its trailing carriage return. -/
def stripReturn (line : Bytes) : Bytes :=
  if line.getLast? = some 0x0D then line.dropLast else line

/-- `SplitPaths`: the non-empty lines. -/
def splitPaths (pathBytes : Bytes) : List Bytes :=
  ((pathBytes.splitOn 0x0A).map stripReturn).filter (fun line => line ≠ [])

def makeFileUri (path : Bytes) : Bytes := ascii "file://" ++ percentEncodePath path

def formatTextUriList (paths : List Bytes) : Bytes :=
  paths.flatMap (fun p => makeFileUri p ++ [0x0D, 0x0A])

def formatGnomeCopiedFiles (paths : List Bytes) : Bytes :=
  ascii "copy" ++ paths.flatMap (fun p => 0x0A :: makeFileUri p)

/-- `FormatForMime`: everything but the GNOME type falls back to the list of
RFC 2483. -/
def formatForMime (pathBytes mime : Bytes) : Bytes :=
  if mime = ascii "x-special/gnome-copied-files" then formatGnomeCopiedFiles (splitPaths pathBytes)
  else formatTextUriList (splitPaths pathBytes)

/-! ## Images -/

structure DecodedImage where
  width : Int := 0
  height : Int := 0
  rgba : Bytes := []
deriving DecidableEq, Repr

def DecodedImage.ok (image : DecodedImage) : Bool :=
  0 < image.width && 0 < image.height &&
    image.rgba.length = image.width.toNat * image.height.toNat * 4

inductive ImageFormat
  | png
  | bmp
deriving DecidableEq, Repr

/-- What `libwebp` and Qt do: the dimensions in the header of a WebP stream,
its pixels with the dimensions they came out at, and the encoding of a
picture. -/
structure ImageLibrary where
  webPGetInfo : Bytes → Option (Int × Int)
  webPDecodeRGBA : Bytes → Option (Int × Int × Bytes)
  save : DecodedImage → ImageFormat → Option Bytes

/-- `DecodeWebP`; every failure returns the empty picture, which is not
`ok`.  `SIZE_MAX` is `2 ^ 64 - 1`. -/
def decodeWebP (lib : ImageLibrary) (data : Bytes) : DecodedImage :=
  if data = [] then {}
  else
    match lib.webPGetInfo data with
    | none => {}
    | some (width, height) =>
      if width ≤ 0 ∨ height ≤ 0 then {}
      else if (2 ^ 64 - 1) / 4 / height.toNat < width.toNat then {}
      else
        match lib.webPDecodeRGBA data with
        | none => {}
        | some (decodedWidth, decodedHeight, decoded) =>
          if decodedWidth ≠ width ∨ decodedHeight ≠ height then {}
          else
            { width := width, height := height,
              rgba := decoded.take (width.toNat * height.toNat * 4) }

/-- The encoder for a MIME type that the backends advertise. -/
def formatOfMime (mime : Bytes) : Option ImageFormat :=
  if mime = ascii "image/png" then some .png
  else if mime = ascii "image/bmp" ∨ mime = ascii "image/x-bmp" then some .bmp
  else none

/-- `ConvertImageForMime`: nothing, on any failure. -/
def convertImageForMime (lib : ImageLibrary) (webpBytes mime : Bytes) : Bytes :=
  if webpBytes = [] then []
  else
    let image := decodeWebP lib webpBytes
    if !image.ok then []
    else
      match formatOfMime mime with
      | none => []
      | some format => (lib.save image format).getD []

/-- What is written for a payload of the given kind. -/
def render (lib : ImageLibrary) (kind : ContentKind) (payload mime : Bytes) : Bytes :=
  match kind with
  | .image => convertImageForMime lib payload mime
  | .files => formatForMime payload mime
  | .text => payload

/-- A path with a blank, for both kinds of consumer. -/
example : formatForMime (ascii "/a b\r\n\n/c") (ascii "text/uri-list") =
    ascii "file:///a%20b\r\nfile:///c\r\n" := by decide

end PasteFormats
