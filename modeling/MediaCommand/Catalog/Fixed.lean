import MediaCommand.Tokens
import MediaCommand.Value.Constants

/-!
# The fixed catalogues

The option values that the programs know by name, with the tokens that differ from the name in
small letters, the frame sizes, the overlay positions and what each name stands for.
-/

namespace MediaCommand

namespace Catalog

/-- How much the programs report. -/
def logLevel : Catalog := fixed "LogLevel" [
  "QUIET", "PANIC", "FATAL", "ERROR", "WARNING", "INFO", "VERBOSE", "DEBUG", "TRACE"]

/-- Encoding presets, fastest to slowest. -/
def preset : Catalog := fixed "Preset" [
  "ULTRAFAST", "SUPERFAST", "VERY_FAST", "FASTER", "FAST", "MEDIUM", "SLOW", "SLOWER",
  "VERY_SLOW", "PLACEBO"]

/-- When a filter evaluates its expressions. -/
def when : Catalog := fixed "When" [
  "INIT", "FRAME"]

/-- What scaling does to keep the aspect ratio. -/
def aspectRatio : Catalog := fixed "AspectRatio" [
  "DISABLE", "DECREASE", "INCREASE"]

/-- What a filter does when its secondary input ends. -/
def eofAction : Catalog := fixed "EofAction" [
  "REPEAT", "END_ALL", "PASS"]

/-- Processor features. -/
def cpuFlag : Catalog := fixed "CpuFlag" [
  "MMX", "MMXEXT", "SSE", "SSE2", "SSE3", "SSSE3", "SSE4_1", "SSE4_2", "AVX", "AVX2", "FMA3",
  "THREE_DNOW", "THREE_DNOWEXT", "CMOV", "ARMV6", "VFP", "NEON", "ARMV8"]

/-- Layouts of a pixel. -/
def pixelFormat : Catalog := fixed "PixelFormat" [
  "YUV420P", "YUV422P", "YUV444P", "YUV420P10LE", "NV12", "GRAY", "RGB24", "RGBA", "ZERO_RGB"]

/-- Named frame sizes. -/
def videoSize : Catalog := fixed "VideoSize" [
  "NTSC", "QNTSC", "PAL", "QPAL", "QCIF", "NHD", "QHD", "HD480", "HD720", "HD1080", "UHD2160",
  "UHD4320", "CGA", "EGA", "VGA", "QVGA", "SVGA", "XGA", "SXGA", "WXGA", "UXGA", "WUXGA",
  "TWO_K", "TWO_K_FLAT", "TWO_K_SCOPE", "FOUR_K", "FOUR_K_FLAT", "FOUR_K_SCOPE"]

/-- Ranges of sample values. -/
def sampleRange : Catalog := fixed "SampleRange" [
  "AUTO", "JPEG", "MPEG", "FULL", "LIMITED", "PC", "TV"]

/-- Formats an overlay works in. -/
def overlayFormat : Catalog := fixed "OverlayFormat" [
  "YUV420", "YUV420P10", "YUV422", "YUV422P10", "YUV444", "RGB", "GBRP", "AUTO"]

/-- How an overlay reads the alpha channel. -/
def alphaFormat : Catalog := fixed "AlphaFormat" [
  "STRAIGHT", "PREMULTIPLIED"]

/-- Named frame rates. -/
def fpsLink : Catalog := fixed "FpsLink" [
  "SOURCE_FPS", "NTSC", "PAL", "FILM", "NTSC_FILM"]

/-- How timestamps are rounded. -/
def roundMethod : Catalog := fixed "RoundMethod" [
  "ZERO", "INF", "DOWN", "UP", "NEAR"]

/-- What a rate filter does with the last timestamp. -/
def fpsEofAction : Catalog := fixed "FpsEofAction" [
  "ROUND", "PASS"]

/-- Transitions between two inputs. -/
def transition : Catalog := fixed "Transition" [
  "FADE", "FADE_BLACK", "FADE_WHITE", "FADE_GRAYS", "DISTANCE", "WIPE_LEFT", "WIPE_RIGHT",
  "SLIDE_LEFT", "SLIDE_RIGHT", "CIRCLE_CROP", "CIRCLE_OPEN", "DISSOLVE", "PIXELIZE", "RADIAL",
  "HL_SLICE", "HR_SLICE", "ZOOM_IN"]

/-- Overlay positions. -/
def overlays : Catalog := fixed "Overlays" [
  "CENTER", "LEFT_TOP", "LEFT_CENTER", "RIGHT_TOP", "RIGHT_CENTER", "RIGHT_BOTTOM", "LEFT_BOTTOM"]

/-- The state of a node's base arguments. -/
def argState : Catalog := fixed "ArgState" ["BUFFERING", "FLUSHED"]

/-- All fixed catalogues that callers can name. -/
def all : List Catalog := [
  logLevel, preset, when, aspectRatio, eofAction, cpuFlag, pixelFormat, videoSize, sampleRange,
  overlayFormat, alphaFormat, fpsLink, roundMethod, fpsEofAction, transition, overlays]

end Catalog

/-- The tokens that differ from the variant in small letters, before anything is looked up. -/
def Tokens.initial : Tokens :=
  ⟨[
    (.preset, [
      ("VERY_FAST", "veryfast"), ("VERY_SLOW", "veryslow")]),
    (.eofAction, [
      ("END_ALL", "endall")]),
    (.cpuFlag, [
      ("SSE4_1", "sse4.1"), ("SSE4_2", "sse4.2"), ("THREE_DNOW", "3dnow"),
      ("THREE_DNOWEXT", "3dnowext")]),
    (.pixelFormat, [
      ("ZERO_RGB", "0rgb")]),
    (.videoSize, [
      ("TWO_K", "2k"), ("TWO_K_FLAT", "2kflat"), ("TWO_K_SCOPE", "2kscope"), ("FOUR_K", "4k"),
      ("FOUR_K_FLAT", "4kflat"), ("FOUR_K_SCOPE", "4kscope")]),
    (.fpsLink, [
      ("NTSC_FILM", "ntsc_film")]),
    (.transition, [
      ("FADE_BLACK", "fadeblack"), ("FADE_WHITE", "fadewhite"), ("FADE_GRAYS", "fadegrays"),
      ("WIPE_LEFT", "wipeleft"), ("WIPE_RIGHT", "wiperight"), ("SLIDE_LEFT", "slideleft"),
      ("SLIDE_RIGHT", "slideright"), ("CIRCLE_CROP", "circlecrop"),
      ("CIRCLE_OPEN", "circleopen"), ("HL_SLICE", "hlslice"), ("HR_SLICE", "hrslice"),
      ("ZOOM_IN", "zoomin")])], []⟩

/-- Whether a value is a member of a catalogue. -/
def Value.isMemberOf (value : Value) (catalog : Catalog) : Bool :=
  match value with
  | .member m _ => m.catalog = catalog
  | _ => false

/-- Width and height of the named frame sizes. -/
def frameSizes : List (String × Nat × Nat) := [
  ("NTSC", 720, 480), ("QNTSC", 352, 240), ("PAL", 720, 576), ("QPAL", 352, 288),
  ("QCIF", 176, 144), ("NHD", 640, 360), ("QHD", 960, 540), ("HD480", 852, 480),
  ("HD720", 1280, 720), ("HD1080", 1920, 1080), ("UHD2160", 3840, 2160),
  ("UHD4320", 7680, 4320), ("CGA", 320, 200), ("EGA", 640, 350), ("VGA", 640, 480),
  ("QVGA", 320, 240), ("SVGA", 800, 600), ("XGA", 1024, 768), ("SXGA", 1280, 1024),
  ("WXGA", 1366, 768), ("UXGA", 1600, 1200), ("WUXGA", 1920, 1200), ("TWO_K", 2048, 1080),
  ("TWO_K_FLAT", 1998, 1080), ("TWO_K_SCOPE", 2048, 858), ("FOUR_K", 4096, 2160),
  ("FOUR_K_FLAT", 3996, 2160), ("FOUR_K_SCOPE", 4096, 1716)]

/-- Width and height of a member of the frame sizes. -/
def Member.dimensions? (m : Member) : Option (Nat × Nat) :=
  if m.catalog = .videoSize then
    (frameSizes.find? fun size => decide (size.1 = m.name)).map (·.2)
  else none

/-- One coordinate of a named position. -/
structure Coordinate where
  expression : String
  takesMargin : Bool
  deriving DecidableEq, Repr

namespace Coordinate

def left : Coordinate := ⟨"", true⟩

def right : Coordinate := ⟨"main_w-overlay_w-", true⟩

def top : Coordinate := ⟨"", true⟩

def bottom : Coordinate := ⟨"main_h-overlay_h-", true⟩

def middleX : Coordinate := ⟨"(main_w-overlay_w)/2", false⟩

def middleY : Coordinate := ⟨"(main_h-overlay_h)/2", false⟩

/-- The expression with a pair of braces where the margin goes. -/
def template (coordinate : Coordinate) : String :=
  coordinate.expression ++ if coordinate.takesMargin then "\x7b\x7d" else ""

end Coordinate

/-- The coordinates of the named positions. -/
def positions : List (String × Coordinate × Coordinate) := [
  ("CENTER", .middleX, .middleY),
  ("LEFT_TOP", .left, .top),
  ("LEFT_CENTER", .left, .middleY),
  ("RIGHT_TOP", .right, .top),
  ("RIGHT_CENTER", .right, .middleY),
  ("RIGHT_BOTTOM", .right, .bottom),
  ("LEFT_BOTTOM", .left, .bottom)]

/-- What the names of a fixed catalogue stand for: a frame size for its text, a position for its
two expressions, any other for its place in the catalogue, counted from one. -/
def Constants.ofFixed (catalog : Catalog) : Constants :=
  ⟨catalog,
    if catalog = .videoSize then
      frameSizes.map fun size => (size.1, .text (toString size.2.1 ++ "x" ++ toString size.2.2))
    else if catalog = .overlays then
      positions.map fun position =>
        (position.1, .tuple [.text position.2.1.template, .text position.2.2.template])
    else catalog.names.zipIdx.map fun place => (place.1, .int (place.2 + 1))⟩

/-- All fixed catalogues that callers can name, with what their names stand for. -/
def Constants.fixed : List Constants := Catalog.all.map ofFixed

end MediaCommand
