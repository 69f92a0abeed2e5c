import TensorLowering.Reduction.Indexing

/-!
# Convolution kernels

A convolution reads its input through windows: output position `o` and kernel position `k` meet at
`o * stride + k * dilation` on each spatial axis. The three families differ in how they treat the
channels. Loops over the output come first, then the summed ones.
-/
namespace TensorLowering

/-- Where the channel axis stands: before the spatial axes or after them. -/
inductive ConvLayout where
  | channelFirst
  | channelLast
  deriving DecidableEq

/-- Every output channel reads every input channel, or there is one filter per channel, or input,
weight and output have an explicit axis of groups. -/
inductive ConvVariant where
  | standard (layout : ConvLayout)
  | depthwise (layout : ConvLayout)
  | grouped
  deriving DecidableEq

structure ConvKernel where
  variant : ConvVariant
  strides : List Int
  dilations : List Int
  quantized : Bool
  deriving DecidableEq

namespace ConvKernel

def spatialRank (k : ConvKernel) : Nat := k.strides.length

/-- The letters of the spatial axes. -/
def spatialLetters : Nat → String
  | 1 => "w"
  | 2 => "hw"
  | _ => "dhw"

def name (k : ConvKernel) : String :=
  let rank := toString k.spatialRank
  let sp := spatialLetters k.spatialRank
  let base := match k.variant with
    | .standard .channelFirst => "conv_" ++ rank ++ "d_nc" ++ sp ++ "_fc" ++ sp
    | .standard .channelLast => "conv_" ++ rank ++ "d_n" ++ sp ++ "c_" ++ sp ++ "cf"
    | .depthwise .channelFirst => "depthwise_conv_" ++ rank ++ "d_nc" ++ sp ++ "_c" ++ sp
    | .depthwise .channelLast => "depthwise_conv_" ++ rank ++ "d_n" ++ sp ++ "c_" ++ sp ++ "c"
    | .grouped => "conv_" ++ rank ++ "d_ngc" ++ sp ++ "_gfc" ++ sp
  if k.quantized then base ++ "_q" else base

/-- The window expressions, with the output loops counted from `out` and the kernel loops from
`kernel`. -/
def windows (k : ConvKernel) (out kernel : Nat) : List AffineExpr :=
  (k.strides.zip k.dilations).mapIdx fun i (stride, dilation) =>
    (AffineExpr.dim (out + i)).scale stride |>.add ((AffineExpr.dim (kernel + i)).scale dilation)

/-- Consecutive loop variables. -/
def loops (first count : Nat) : List AffineExpr := (List.range' first count).map .dim

/-- The indexing, when every stride has a dilation beside it. -/
def indexing? (k : ConvKernel) : Option Indexing :=
  let s := k.spatialRank
  let nest (parallel reduction : Nat) : List IteratorKind :=
    List.replicate parallel .parallel ++ List.replicate reduction .reduction
  if k.dilations.length < s then none
  else some <| match k.variant with
    -- batch, filter, output positions; channel, kernel positions
    | .standard layout =>
        let n := AffineExpr.dim 0
        let f := AffineExpr.dim 1
        let c := AffineExpr.dim (2 + s)
        let window := k.windows 2 (3 + s)
        let taps := loops (3 + s) s
        let spatial := loops 2 s
        match layout with
        | .channelFirst =>
            .ofResults (n :: c :: window) (f :: c :: taps) (n :: f :: spatial)
              (nest (2 + s) (1 + s))
        | .channelLast =>
            .ofResults (n :: window ++ [c]) (taps ++ [c, f]) (n :: spatial ++ [f])
              (nest (2 + s) (1 + s))
    -- batch, channel, output positions; kernel positions
    | .depthwise layout =>
        let n := AffineExpr.dim 0
        let c := AffineExpr.dim 1
        let window := k.windows 2 (2 + s)
        let taps := loops (2 + s) s
        let spatial := loops 2 s
        match layout with
        | .channelFirst =>
            .ofResults (n :: c :: window) (c :: taps) (n :: c :: spatial) (nest (2 + s) s)
        | .channelLast =>
            .ofResults (n :: window ++ [c]) (taps ++ [c]) (n :: spatial ++ [c]) (nest (2 + s) s)
    -- batch, group, filter, output positions; channel, kernel positions
    | .grouped =>
        let n := AffineExpr.dim 0
        let g := AffineExpr.dim 1
        let f := AffineExpr.dim 2
        let c := AffineExpr.dim (3 + s)
        .ofResults (n :: g :: c :: k.windows 3 (4 + s)) (g :: f :: c :: loops (4 + s) s)
          (n :: g :: f :: loops 3 s) (nest (3 + s) (1 + s))

end ConvKernel

end TensorLowering
