import Chip8.Image

/-! The window that shows the screen. It starts filled with the colour of pixels
that are off, and every screen drawn is laid over it. -/

set_option autoImplicit false

namespace Chip8

inductive WindowError where
  | unknownScheme (error : UnknownScheme)
  | negativeSize
  /-- No caption can hold a null character. -/
  | nullInCaption

def WindowError.message : WindowError → String
  | unknownScheme error => error.message
  | negativeSize => "Cannot set negative sized display mode"
  | nullInCaption => "embedded null character"

structure Window where
  scale : Int
  scheme : Scheme
  caption : String
  image : Image

namespace Window

def defaultScale : Int := 8

def defaultCaption : String := "CHIP-8"

/-- Width and height. A size of zero asks for the whole desktop. -/
def sizeFor (scale : Int) : Nat × Nat :=
  if scale = 0 then (1024, 768)
  else ((Screen.width * scale).toNat, (Screen.height * scale).toNat)

def create (scale : Int) (scheme caption : String) : Except WindowError Window :=
  match Scheme.ofName scheme with
  | .error e => .error (.unknownScheme e)
  | .ok scheme =>
      if scale < 0 then .error .negativeSize
      else if caption.contains '\x00' then .error .nullInCaption
      else
        let (width, height) := sizeFor scale
        .ok ⟨scale, scheme, caption, Image.solid width height scheme.off⟩

/-- A bitmap in the window's colours and size. -/
def picture (w : Window) (b : Bitmap) : Image :=
  (b.paint w.scheme.on w.scheme.off).enlarge (max w.scale 1).toNat

/-- Surfaces are indexed by columns first. -/
def surface (w : Window) (b : Bitmap) : Image := (w.picture b).transpose

def blit (w : Window) (surface : Image) : Window :=
  { w with image := w.image.overlay surface.transpose }

def present (w : Window) (b : Bitmap) : Window := w.blit (w.surface b)

def draw (w : Window) (screen : Screen) : Window := w.present screen.bitmap

end Window

end Chip8
