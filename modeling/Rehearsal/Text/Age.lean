import Rehearsal.Text.Runs

/-!
# Ages

The age of a code point is the edition of the Unicode character database in which it was
assigned first. In the runs an edition is written as a letter: the first edition as `a`,
the one after `z` as `A`.
-/

namespace Rehearsal

namespace Text

namespace Age

def editions : List String :=
  ["1.1", "2.0", "2.1", "3.0", "3.1", "3.2", "4.0", "4.1", "5.0", "5.1", "5.2", "6.0",
    "6.1", "6.2", "6.3", "7.0", "8.0", "9.0", "10.0", "11.0", "12.0", "12.1", "13.0", "14.0",
    "15.0", "15.1", "16.0"]

/-- The runs of the database; a minus sign stands for no edition. -/
def runLengths : List String := [
  "a502d4a30d8f1g1d18g3h11i14a89d5g2a47d1a10d5g17a70d9f1g8h5g3a2d1f13j4a2j2-2a1i3a1p1-4a7-1a1-1",
  "a20-1a44j1a7d1f2a1d1a1d1a1d1a1d1a18e2f1g5h4d1a12d1a66d1a12d1a41j1d2f2d4a53f2a2f2a2f2i1a28d2",
  "a8h2a2i6f16i4j16k2l2p8-1a38-2a7t1a39t1a1d1-2p2m1-1b17h1b13a10i1a9b1h3-8a27-4t1a5-11g4m1p1j5",
  "h1a1g9j5a1o1x1h1a1l1a26j5a19d3g3h6l1a14f2a72d2a5d1a15d1a30g2a10d5g1d14-1d30g3d27-2g3h30j18",
  "d49f1-14i59-2t3k46-2k15-1l28-2l1-1s11-5x31-1x2-5A1x8m1p1m11p6q2x1r8w10x11t1r15q1m27p1k1a3g1",
  "a53l2a18k1l1a5k1l2a25j2l5p1k2i2h1i2p1a3-1a8-2a2-2a22-1a7-1a1-3a4-2a1g1a7-2a2-2a3h1-8a1-4a2-1",
  "a5-2a21k1s2t1-2g1a1g1-1a6-4a2-2a22-1a7-1a2-1a2-1a2-2a1-1a5-4a2-2a3-3j1-7a4-1a1-7a15j1t1-10a3",
  "-1a7g1a1-1a3-1a22-1a7-1a2-1a5-2a10-1a3-1a3-2a1-15a1g3-2a10m1g1-7q1s6-1a3-1a8-2a2-2a22-1a7-1",
  "a2-1g1a4-2a8j1-2a2-2a3-7w1a2-4a2-1a3j2-2a11g1l6-10a2-1a6-3a3-1a4-3a2-1a1-1a2-3a2-3a3-3a8h1a3",
  "-4a5-3a3-1a4-2j1-6a1-14h1a12g8-5p1a3t1a8-1a3-1a23-1a10p1a5-2x1j1a7-1a3-1a4-7a2-1j2q1-2x1-2a2",
  "j2-2a10-7u1j8r1p1a2t1a8-1a3-1a23-1a10-1a5-2g2a7-1a3-1a4-7a2-6x1a1-1a2i2-2a10-1i2y1-12s1p1a2",
  "w1a8-1a3-1a23l1a16l1s2j1a6j1-1a3-1a4l1r1-4r3a1r7q1a2j2-2a10j6r3j7-1w1d2-1d18-3d24-1d9-1d1-2",
  "d7-3d1-4d6-1d1-1d8-6p10-2d3-12a58-4a29-37a2-1a1-1u1a2u1a1-1u1a1u6a4u1a7u1a3-1a1-1a1u2a2u1a13",
  "u1a3-2a5-1a1-1a6y1-1a10-2a2m2-32b72-1b33d1j2-4b27l4b6d1b1-1b21d3b7d1b1d3-1d15-1j1d1h2j3k4l2",
  "-37d34j1d5j1d2j1d7j3d4j6d26j64k4j2a38-1m1-5m1-2a39f2h2a1h1m3a90k5a68k5a82k6d7h1d63h1d1-1d4-2",
  "d7-1d1-1d4-2d39h1d1-1d4-2d31h1d1-1d4-2d7-1d1-1d4-2d7h1d7-1d23h1d31h1d1-1d4-2d7h1d39h1d19-2l2",
  "h2d28-3h26-6d85q1-2q6-2k1d630k9d29-3d81p8-7f13x1f7x1-9x1f23-9f20-12f13-1f3-1f2-12d93g1-2d10",
  "-6g10-6d15x1d10-6d88t1-7d42j1-5k70-10g29p2-1g12-4g12-4g1-3g42-2g5-11h42k2-4h26-6h10k1-3h2g32",
  "h28-2h2k63-1k29-2k11-6k10-6k14-2p15w2x14-49i76x1-1A2i45x2A1j43m3j12m6l52-8l4j56-3j15-3j51r9",
  "A2-5t43-2t3m8-8k35m4s1p2u1-5g108h88i7j28p15s4x1r1l1k1i2a155b1j4a90j6a22-2a6-2a38-2a6-2a8-1a1",
  "-1a1-1a1-1a31-2a53-1a15-1a14-2a6-1a19-2a3-1a9-1a47d1a23f1d6f5g2h2f1h7f5j1-1o4a7f1-2a27-1h5l8",
  "-3a11b1c1d3f2h4k3l1n1p3q1s1x1-15a18d2f7h1i4j1-15a57d2g1h1f15h1i2j1k3a48d1i1j4k1q2-4a91d9f12",
  "a242f14a1d1a121d1f1d30f52g2h11i12k1l11p7r4s1a37d2A3-22a11-21a139f20g1a150f10a80d8f8a20g2f2h1",
  "d1a86d2f12h2f10g8h11j1k2g2h16i1j10k3j4k10l1k19l1k1l4k24p1a4l1a4l2a28l1a35l1a1l1a4l3a1k1a7l2",
  "a7f14a31l3a24l1a14l1h7i4m1j1m1l2f28j4f16d256f512g14h6i7j5i4j41p3j5k5p26-2p32-1w1p34t3p12u1p8",
  "s1t25q4t15u1h47x1h47x1i13j3k1j3i4j6k2h107k7m2-5h45-1m1-5m1-2h54m2-7h1l1-14l1h23-9h7-1h7-1h7",
  "-1h7-1h7-1h7-1h7-1h7-1j32h24j4h2j19k1m10p7r2s5t5u1w3x11-34d26-1d89-12d214-26d12z4a56d3f3d1a1",
  "-1a84f2-2a6f2a94f1-5a40j1s1t1-1a94-1a16d24l3w5h16j20A2-9z1f16a29g2-1a36k12g1f15a28g2h1a50f15",
  "a12g4a47v1a119g4a99g2a31g1d6582w10g64a20902h22j8k8m1q9s21t5w13x3d1165-3d18f2d16f1d12f1d3f1d1",
  "-9k48j300-20j32l2j18m8j28p6q1m1k88-8h23i4j5i2j107l2q1l2m2p12l10m1p3r1t1p2q6t2u6x2u5w4A3-2x2",
  "-1x1-1x5A3-21x3w2p1m2l1j5h44w1-3k10-6i56-8j69r1-8j12-6k28q2t2j84-11j1k29-3k78-1k11-4k2p31-1",
  "j55-9j14-2j10-2j4k28p4k67-24k5m23-10l6-2l6-2l6-9l7-1l7-1p48q4p2u2w4-4q80k46-2k10-6b11172-12",
  "k23-4k49-2052a6702m2f59k3-2h106-38a7-12a5-5d1a25-1a5-1a1-1a2-1a2-1a108l16x1-16a365x16a64-2",
  "a54-7x1e32a12f1g1x2f16h10-6a4j3p7q2a21f2g2a10-1a19-1a4-4a3f1a1-1a135-2a1-1a94f2a94-3a6-2a6-2",
  "a6-2a3-3a7-1a7-10d3c1a3g12-1g26-1g19-1g2-1g15-2g14-34g123-5g3-4g45-3g9h75p2r2-1j12w1-3p1-47",
  "j46-130j29-3j49-15p28-4e31p1e4-9s3e27-5p43-5g30-1g1h36-4h14-42e38g2e38g80-2g10-6r36-4r36-4",
  "p40-8p52-11p1x11-1x15-1x7-1x2-1x11-1x15-1x7-1x2-3A52-12p311-9p22-10p8-24x6-1x42-1x9-69g6-2g1",
  "-1g44-1g2-3g1-2g1k22-1k9p63-8p9-48q19-1q2-5q5i26k2-3i1j26-5j1-64m56-4q2m2q16-2q46h4-1h2-5h8",
  "-1h3-1h27t2-2h3-4h9t1-7h9-7k32p32-32p39-4p12-9k54-3k29-2k27-5k8p18-7p4-12p7-80k73-55q51-13",
  "q51-7q6t40-8t10-6A38-3A29-8A2-208k31-1w42-1w3-2w2-16A3-55A1y3t40-8t42-22x26-38w28-20u23-9l78",
  "-4l30x6-9p1k66x1-10t1-2m25-7m10-6m53-1m14t3w1-8p39-9m73q4p1w2m10p1q5-1p20-11p18-1p43r1y3-62",
  "q7-1q1-1q4-1q15-1q11-6p59-5p10-6q1p3-1p8-2p2-2p22-1p7-1p2-1p5-1t1p9-2p2-2p3-2q1-6p1-5p7-2p7",
  "-3p5-11A10-1A1-2A1-1A38-1A10-1A1-2A1-1A4-1A10-1A2-8A2-29r90w1r1-1r1t1u1w2-30p72-8p10-166p54",
  "-2p18q20-34p69-11p10-6r13-19m56u1x1-6m10-6A20-28q26t1-2q15-4q16x7-185t60-100p83-12p1w7-2w1-2",
  "w8-1w2-1w30-1w2-2w12-9w10-70u8-2u46-2u11-27s72-8s52u2s23t1s5-13x16p57-7y10-182A34-14A10-6r9",
  "-1r45-1r14-10r29-3r32-2r22-1r14-73s7-1s2-1s44-3s1-1s2-1s9-8s10-6t6-1t2-1t37-1t2-1t6-7t10-310",
  "t25-7y17-1y41-3y28A1-85w1-15u50-13u1i879p42q1-102i99p12-1i4p1-11q196-2636x99-13k1071y1u9y29",
  "-10A3995-5q583-6841A58-1734l569-7p31-1p10-4p2x79-1x10-6p30-2p6-10p70-10p10-1p7-1p21-5p19-432",
  "A58-198t91-101m69u6-4u1m47u9-7m17-64r1s1u2w1-11w2-14r6125t5u6-8r755w483-41A1w9-8935x4-1x7-1",
  "x2-1l2s285x4-15y1-29u3-2y1-14u4-8s396-2308p107-5p13-3p9-7p10-2p8-3932A250-6A436-76x46-2x23-9",
  "x116-60e246-10e39-2j1e180q11x2-21h70-122y20-12t20-12g87-9i18t7-135e85-1e71-1e2-2e1-2e2-2e4-1",
  "e12-1e1-1e4g1e2-1e65-1e4-2e8-1e7-1e28-1e4-1e5-1e1-3e7-1e338h2-2e290i2-2e50q652-15q5-1q15",
  "-1104x31-6y6-213r7-1r17-2r7-1r2-1r5-5y62-33y1-112u45-3u14-2u10-4u2-320x31-17u58-5u1-464y42",
  "-214A43-4A1-480x7-1x4-1x2-1x15-1p197-2p16-41r75u1-4r10-4r2-785t68-76u61-194m4-1m27-1m2-1m1-2",
  "m1-1m10-1m4-1m1-1m1-6m1-4m1-1m1-1m1-1m3-1m2-1m1-2m1-1m1-1m1-1m1-1m1-1m2-1m1-2m4-1m7-1m4-1m4",
  "-1m1-1m10-1m17-5m3-1m5-1m17-52m2-270j44-4j100-12l15-2l14p1-1l15-1l15p22-10k11p2w3k31t1l1k1",
  "l11k1l1k1l2k1l3k1l3k5l8k1l7k1l10m2u1w3l9k1l1k2l2k1l10k4l2k1l10r18w1-56l26k1l2-13k34l9r1-4k9",
  "-7l2-14s6-154l33p12q3l6p1l70p1q2l20p12l37p1l5p4q5p12l17p7q8l63p1l1p1l182p1l4p2q1l62p2m4p7q5",
  "l24p18r1p41r1p86l5m1l16m1l3m1l1m1l1m1l1m1l3m1l6m2l4m1l1m2l4m1l12p2q2l11p48l70p10q1r2s2u1w2-4",
  "y1x3p13-3p4r3s2t1u1w2-3l116y3-4y5p85t4y1-6u12-4x1-15p12-4p56-8p10-6p40-8p30-2w2A10-4A2-62s12",
  "w1u3q9r6s1r8s8r1s2r12u1r12s1t3r15s13t5u1w1t4w2x1t1u1t4q5r13s6t11w2u6w3u2t10u6q1t2u8w1x1u3s23",
  "t25u84-12t14-2u4w1y3u3x2-3u3w4y2A1-5A1u6w19x4y3w7x4y3A1y1w3x3A1-7y2w7x3y2A1-2A1x8y1A1-6x7y2",
  "-7w147-1w55A37w10-1028b2e42711w7x2-32k4149x4y1-6l222-2q5762-14s7473-15z622-2466e542-1504b2",
  "w4939-5y4192-56398b2-65534b2-65534b2-65534b2-65534b2-65534b2-65534b2-65534b2-65534b2-65534b2",
  "-65534b2-1e1-30e96-128g240-65038b131074"]

def ofLetter (letter : String) : Option Nat :=
  match letter.toList with
  | ['A'] => some 26
  | [c] => if 'a' ≤ c && c ≤ 'z' then some (c.toNat - 'a'.toNat) else none
  | _ => none

/-- The first code point of every run with the number of the edition of the run, in order. -/
def runs : Array (Nat × Option Nat) := (Runs.ofLines runLengths).map fun r => (r.1, ofLetter r.2)

def isAssignedBy (edition n : Nat) : Bool :=
  match Runs.find? runs n with
  | some (some first) => first ≤ edition
  | _ => false

end Age

end Text

end Rehearsal
